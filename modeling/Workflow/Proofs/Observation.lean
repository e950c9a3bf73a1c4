import Workflow.Proofs.Results

/-!
Runs under observation. A watched node writes every call of its behaviour to a log that lies beside
the world: what the attempt was given, and which shared store it left. A watched run is the run as
it was, and every turn of it adds the calls of its node to the log.
-/
namespace Workflow

namespace Run

/-- An attempt as its node sees it, and the shared store as it leaves it. -/
structure Call where
  node : String
  input : Payload
  context : Context
  left : Payload

end Run

open Run (Call)

variable {σ : Type}

/-- A behaviour that logs its calls as those of a node. -/
def Node.Behavior.watched (node : String) (b : Behavior σ) : Behavior (σ × List Call) where
  nodeType := b.nodeType
  attemptTimeout := b.attemptTimeout
  handsOver := b.handsOver
  execute input c w :=
    let (work, world) := b.execute input c w.1
    (work, world, w.2 ++ [⟨node, input, c, work.value.globalState⟩])

/-- Types of nodes that are watched. -/
def Node.Registry.watched (registry : Registry σ) : Registry (σ × List Call) :=
  registry.map fun entry => (entry.1, fun i => (entry.2 i).map (Behavior.watched i.id))

namespace Run

def Prepared.watched (n : Prepared σ) : Prepared (σ × List Call) where
  definition := n.definition
  behavior := n.behavior.watched n.id
  policy := n.policy

def Engine.watched (e : Engine σ) : Engine (σ × List Call) where
  config := e.config
  registry := e.registry.watched

/-- A moment without its log. -/
def Moment.unwatched (m : Moment (σ × List Call)) : Moment σ := ⟨m.world.1, m.clock⟩

/-- A moment with a log. -/
def Moment.withLog (m : Moment σ) (log : List Call) : Moment (σ × List Call) :=
  ⟨(m.world, log), m.clock⟩

/-! ## Nodes -/

namespace Prepared

variable (n : Prepared σ) (input : Payload) (c : Context)

/-- The call of an attempt in a world. -/
def call (world : σ) : Call :=
  ⟨n.id, input, c, (n.behavior.execute input c world).1.value.globalState⟩

/-- A success is not late: the store is the one that the behaviour left. -/
theorem attempt_globalState_of_ok {world : σ} {output : Node.Output}
    (h : (n.attempt input c world).1.value.outcome = .ok output) :
    (n.attempt input c world).1.value.globalState = (n.call input c world).left := by
  have hwithin : (n.attempt input c world).1 =
      (n.behavior.execute input c world).1.within n.attemptTimeout (n.late c) := rfl
  rw [hwithin, Time.Timed.within] at h ⊢
  split at h
  · cases h
  · rename_i hlate
    rw [if_neg hlate]
    rfl

/-- The calls of attempts that come to a conclusion, or to none: each is given the same, and the
last one of a success left the store of the conclusion. -/
structure Logs (conclusion : Option Conclusion) (made : Nat) (calls : List Call) : Prop where
  called : calls ≠ []
  given : ∀ call ∈ calls, call.node = n.id ∧ call.input = input ∧ call.context = c
  count : ∀ k, conclusion = some k → made + calls.length = k.count
  left : ∀ k output, conclusion = some k → k.last.outcome = .ok output →
    calls.getLast?.map Call.left = some k.last.globalState

variable {n input c}

theorem Logs.broken_off (world : σ) (made : Nat) :
    Logs n input c none made [n.call input c world] where
  called := nofun
  given := by simp [call]
  count := nofun
  left := nofun

theorem Logs.last {world : σ} (made : Nat) :
    Logs n input c (some ⟨(n.attempt input c world).1.value, made + 1⟩) made
      [n.call input c world] where
  called := nofun
  given := by simp [call]
  count := by rintro k ⟨⟩; rfl
  left := by
    rintro k output ⟨⟩ hok
    rw [List.getLast?_singleton, Option.map_some, n.attempt_globalState_of_ok input c hok]

theorem Logs.cons {conclusion : Option Conclusion} {made : Nat} {calls : List Call}
    (h : Logs n input c conclusion (made + 1) calls) (world : σ) :
    Logs n input c conclusion made (n.call input c world :: calls) where
  called := nofun
  given := by
    intro call hcall
    rcases List.mem_cons.1 hcall with rfl | hcall
    · exact ⟨rfl, rfl, rfl⟩
    · exact h.given call hcall
  count k hk := by
    rw [← h.count k hk, List.length_cons]
    omega
  left k output hk hok := by
    rw [← h.left k output hk hok, List.getLast?_cons_of_ne_nil h.called]

variable (n input c)

/-- The attempts of the watched node are those of the node, and they log their calls. -/
def Mirrors (deadline : Option Deadline) (left made : Nat) (m : Moment (σ × List Call)) : Prop :=
  ∃ calls, n.watched.attempts input c deadline left made m =
      ((n.attempts input c deadline left made m.unwatched).1,
        (n.attempts input c deadline left made m.unwatched).2.withLog (m.world.2 ++ calls)) ∧
    Logs n input c (n.attempts input c deadline left made m.unwatched).1 made calls

variable {n input c}

theorem mirrors_of_over {deadline : Option Deadline} {m : Moment (σ × List Call)} (left made : Nat)
    (h : n.isOver deadline (n.afterAttempt input c m.unwatched).clock = true) :
    n.Mirrors input c deadline left made m := by
  refine ⟨[n.call input c m.world.1], ?_⟩
  rw [attempts_of_over n.watched _ _ _ _ _ h, attempts_of_over n _ _ _ _ _ h]
  exact ⟨rfl, .broken_off _ _⟩

theorem mirrors_of_isLast {deadline : Option Deadline} {m : Moment (σ × List Call)} {left : Nat}
    (made : Nat) (h : n.isOver deadline (n.afterAttempt input c m.unwatched).clock = false)
    (hlast : IsLast (n.attempt input c m.unwatched.world).1.value left) :
    n.Mirrors input c deadline left made m := by
  refine ⟨[n.call input c m.world.1], ?_⟩
  rw [attempts_of_isLast n.watched _ _ _ _ h hlast, attempts_of_isLast n _ _ _ _ h hlast]
  exact ⟨rfl, .last _⟩

/-- Another attempt puts its call in front of those of the attempts that follow. -/
theorem mirrors_of_not_isLast {deadline : Option Deadline} {m : Moment (σ × List Call)}
    {left made : Nat} (h : n.isOver deadline (n.afterAttempt input c m.unwatched).clock = false)
    (hlast : ¬ IsLast (n.attempt input c m.unwatched.world).1.value (left + 1))
    (hrest : n.Mirrors input c deadline left (made + 1)
      (n.watched.afterPause (n.watched.afterAttempt input c m))) :
    n.Mirrors input c deadline (left + 1) made m := by
  unfold Mirrors
  rw [attempts_of_not_isLast n.watched _ _ _ _ h hlast, attempts_of_not_isLast n _ _ _ _ h hlast]
  have hsame : n.watched.isPauseOver deadline
      (n.watched.afterPause (n.watched.afterAttempt input c m)).clock =
        n.isPauseOver deadline (n.afterPause (n.afterAttempt input c m.unwatched)).clock := rfl
  rw [hsame]
  cases n.isPauseOver deadline (n.afterPause (n.afterAttempt input c m.unwatched)).clock with
  | true =>
    rw [if_pos rfl, if_pos rfl]
    exact ⟨[n.call input c m.world.1], rfl, .broken_off _ _⟩
  | false =>
    obtain ⟨calls, heq, hlogs⟩ := hrest
    refine ⟨n.call input c m.world.1 :: calls, ?_, hlogs.cons _⟩
    rw [heq, List.append_cons]
    rfl

variable (n input c)

theorem attempts_watched (deadline : Option Deadline) (left made : Nat)
    (m : Moment (σ × List Call)) : n.Mirrors input c deadline left made m := by
  induction left generalizing made m with
  | zero =>
    cases hover : n.isOver deadline (n.afterAttempt input c m.unwatched).clock with
    | true => exact mirrors_of_over 0 made hover
    | false => exact mirrors_of_isLast made hover (Or.inr rfl)
  | succ left ih =>
    cases hover : n.isOver deadline (n.afterAttempt input c m.unwatched).clock with
    | true => exact mirrors_of_over (left + 1) made hover
    | false =>
      by_cases hlast : IsLast (n.attempt input c m.unwatched.world).1.value (left + 1)
      · exact mirrors_of_isLast made hover hlast
      · exact mirrors_of_not_isLast hover hlast (ih _ _)

end Prepared

/-! ## Turns -/

section Turns

variable {nodes : List (Prepared σ)} {deadline : Option Deadline} {limit left : Nat} {s : State}
  {n : Prepared σ} {rest : List String} {c : Conclusion} {r : Result}

theorem find?_watched (nodes : List (Prepared σ)) (id : String) :
    (nodes.map Prepared.watched).find? (·.id = id) =
      (nodes.find? (·.id = id)).map Prepared.watched := by
  rw [List.find?_map]
  rfl

theorem Turn.watched {m : Moment (σ × List Call)} {m' : Moment σ}
    (h : Turn nodes deadline s m.unwatched n rest c r m') :
    ∃ calls, Turn (nodes.map Prepared.watched) deadline s m n.watched rest c r
        (m'.withLog (m.world.2 ++ calls)) := by
  obtain ⟨calls, heq, -⟩ := n.attempts_watched s.latestOutput s.context deadline
    (n.maxAttempts - 1) 0 m
  rw [h.concluded] at heq
  exact ⟨calls, h.waits, (find?_watched nodes n.id).trans (by rw [h.found]; rfl), heq, h.result⟩

theorem BrokenOff.watched {m : Moment (σ × List Call)} {m' : Moment σ}
    (h : BrokenOff nodes deadline s m.unwatched n rest m') :
    ∃ calls, BrokenOff (nodes.map Prepared.watched) deadline s m n.watched rest
        (m'.withLog (m.world.2 ++ calls)) := by
  obtain ⟨calls, heq, -⟩ := n.attempts_watched s.latestOutput s.context deadline
    (n.maxAttempts - 1) 0 m
  rw [h.open_ended] at heq
  exact ⟨calls, h.waits, (find?_watched nodes n.id).trans (by rw [h.found]; rfl), heq⟩

/-- What a turn of a watched node adds to the log. -/
theorem Turn.logs {n : Prepared (σ × List Call)} {m m' : Moment (σ × List Call)}
    (h : Turn (nodes.map Prepared.watched) deadline s m n rest c r m') :
    ∃ p ∈ nodes, p.watched = n ∧ ∃ calls, m'.world.2 = m.world.2 ++ calls ∧
      p.Logs s.latestOutput s.context (some c) 0 calls := by
  obtain ⟨p, hp, rfl⟩ := List.mem_map.1 h.mem
  obtain ⟨calls, heq, hlogs⟩ := p.attempts_watched s.latestOutput s.context deadline
    (p.maxAttempts - 1) 0 m
  obtain ⟨hconclusion, hmoment⟩ := Prod.mk.inj (heq.symm.trans h.concluded)
  rw [hconclusion] at hlogs
  exact ⟨p, hp, rfl, calls, by rw [← hmoment]; rfl, hlogs⟩

/-- What a watched node that is broken off adds to the log. -/
theorem BrokenOff.logs {n : Prepared (σ × List Call)} {m m' : Moment (σ × List Call)}
    (h : BrokenOff (nodes.map Prepared.watched) deadline s m n rest m') :
    ∃ p ∈ nodes, p.watched = n ∧ ∃ calls, m'.world.2 = m.world.2 ++ calls ∧
      p.Logs s.latestOutput s.context none 0 calls := by
  obtain ⟨p, hp, rfl⟩ := List.mem_map.1 (List.mem_of_find?_eq_some h.found)
  obtain ⟨calls, heq, hlogs⟩ := p.attempts_watched s.latestOutput s.context deadline
    (p.maxAttempts - 1) 0 m
  obtain ⟨hconclusion, hmoment⟩ := Prod.mk.inj (heq.symm.trans h.open_ended)
  rw [hconclusion] at hlogs
  exact ⟨p, hp, rfl, calls, by rw [← hmoment]; rfl, hlogs⟩

end Turns

/-! ## Runs -/

/-- What a traversal leaves behind, without the log. -/
def Traversal.unwatched (t : Traversal (σ × List Call)) : Traversal σ :=
  ⟨t.exit, t.state, t.moment.unwatched⟩

/-- A watched traversal is the traversal. -/
theorem traverse_watched (nodes : List (Prepared σ)) (deadline : Option Deadline) (limit left : Nat)
    (s : State) (m : Moment (σ × List Call)) :
    (traverse (nodes.map Prepared.watched) deadline limit left s m).unwatched =
      traverse nodes deadline limit left s m.unwatched := by
  induction left generalizing s m with
  | zero => rfl
  | succ left ih =>
    cases hpending : s.pending with
    | nil =>
      rw [traverse_of_nil _ hpending, traverse_of_nil _ hpending]
      rfl
    | cons id rest =>
      rcases taken_cases nodes deadline m.unwatched hpending with
        hnone | ⟨n, c, r, m', hturn⟩ | ⟨n, m', hbroken⟩
      · have hnone' : (nodes.map Prepared.watched).find? (·.id = id) = none := by
          rw [find?_watched, hnone, Option.map_none]
        rw [traverse_of_skip hpending hnone, traverse_of_skip hpending hnone']
        exact ih _ _
      · obtain ⟨calls, hwatched⟩ := hturn.watched
        rw [traverse_of_turn hturn, traverse_of_turn hwatched]
        split
        · exact ih _ _
        · rfl
      · obtain ⟨calls, hwatched⟩ := hbroken.watched
        rw [traverse_of_brokenOff hbroken, traverse_of_brokenOff hwatched]
        rfl

theorem create_watched {registry : Node.Registry σ} {nodeType : String} {i : Node.Init}
    {b : Node.Behavior σ} (h : registry.create nodeType i = .ok b) :
    registry.watched.create nodeType i = .ok (b.watched i.id) := by
  have hconstructor : registry.watched.constructor? nodeType =
      (registry.constructor? nodeType).map
        fun make => fun i => (make i).map (Node.Behavior.watched i.id) := by
    rw [Node.Registry.constructor?, Node.Registry.constructor?, Node.Registry.watched,
      List.find?_map, Option.map_map, Option.map_map]
    rfl
  cases hmake : registry.constructor? nodeType with
  | none =>
    rw [Node.Registry.create, hmake] at h
    cases h
  | some make =>
    rw [Node.Registry.create, hmake] at h
    rw [Node.Registry.create, hconstructor, hmake, Option.map_some]
    change (make i).map _ = _
    rw [show make i = .ok b from h]
    rfl

theorem ofDefinition_watched {registry : Node.Registry σ} {config : EngineConfig}
    {n : NodeDefinition} {p : Prepared σ}
    (h : Prepared.ofDefinition registry config n = .ok p) :
    Prepared.ofDefinition registry.watched config n = .ok p.watched := by
  obtain ⟨behavior, hcreate, h⟩ := Fallible.bind_eq_ok.1 h
  obtain ⟨policy, hpolicy, ⟨⟩⟩ := Fallible.bind_eq_ok.1 h
  rw [Prepared.ofDefinition, create_watched hcreate, hpolicy]
  rfl

namespace Engine

variable {e : Engine σ} {d : Definition} {nodes : List (Prepared σ)}

theorem prepare_watched (h : e.prepare d = .ok nodes) :
    e.watched.prepare d = .ok (nodes.map Prepared.watched) := by
  obtain ⟨hvalid, hmade⟩ := prepare_eq_ok h
  have hwatched : d.nodes.mapM (Prepared.ofDefinition e.watched.registry e.watched.config) =
      .ok (nodes.map Prepared.watched) := by
    rw [Fallible.mapM_eq_ok, List.forall₂_map_right_iff]
    exact (Fallible.mapM_eq_ok.1 hmade).imp fun _ _ hfirst => ofDefinition_watched hfirst
  rw [prepare, hvalid, hwatched]
  rfl

/-- A watched run is the run. -/
theorem execute_watched (h : e.prepare d = .ok nodes) (input : Payload)
    (cancellation : Cancellation) (id : Id) (start : Time.Timestamp) (w : σ × List Call) :
    let run := e.execute d input cancellation id start w.1
    let watched := e.watched.execute d input cancellation id start w
    watched.state = run.state ∧ watched.world.1 = run.world ∧ watched.ticks = run.ticks := by
  by_cases hc : cancellation = .already
  · subst hc
    rw [execute_already input id start w.1 h, execute_already input id start w (prepare_watched h)]
    exact ⟨rfl, rfl, rfl⟩
  · rw [execute_of_ne_already input id start w.1 h hc,
      execute_of_ne_already input id start w (prepare_watched h) hc]
    have htraversal := traverse_watched nodes (some (e.deadline cancellation))
      e.config.maxIterations e.config.maxIterations (opening d input id start) ⟨w, 0⟩
    rw [show Moment.unwatched ⟨w, 0⟩ = ⟨w.1, 0⟩ from rfl] at htraversal
    rw [← htraversal]
    exact ⟨rfl, rfl, rfl⟩

end Engine

end Run

end Workflow
