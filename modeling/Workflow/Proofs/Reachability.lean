import Mathlib
import Workflow.Proofs.Confinement
import Workflow.Proofs.Search

/-!
What can be reached in the graph of a workflow and what its runs visit. With the built-in types of
nodes a run never leaves the ids that can be reached, so what is reported as unreachable does not
run, and every id that is taken is that of a node.
-/
namespace Workflow.Run

variable {σ : Type} {e : Engine σ} {d : Definition}

/-- Nodes of the built-in types lead only to what can be reached. -/
theorem confines_reachable {nodes : List (Prepared σ)} (hbuiltin : e.registry.IsBuiltin)
    (h : e.prepare d = .ok nodes) : Confines nodes (Graph.ofDefinition d).reachable := by
  intro n hn hid
  obtain ⟨hmem, hmade⟩ := Engine.made_of_prepare h hn
  have hrefers : ∀ x ∈ n.definition.references, x ∈ (Graph.ofDefinition d).reachable := by
    intro x hx
    have hknown := (Engine.sound_of_prepare h).references_mem _ hmem x hx
    exact Graph.mem_reachable_of_mem_references hmem hid hx hknown
  refine ⟨?_, hrefers⟩
  have hchooses := hbuiltin.choosesAmong (Prepared.create_of_ofDefinition hmade)
  intro input c world output houtput x hx
  exact hrefers x (List.mem_append_right _ (hchooses input c world output houtput x hx))

/-- What a run with nodes of the built-in types visits can be reached in the graph of its workflow,
whatever requests, generators and scripts come to. At every point of the run, what ran and what
waits can be reached, so an unreachable node never runs, and the next id is that of a node. -/
theorem execute_reachable (hvalid : d.validate = .ok ()) (hbuiltin : e.registry.IsBuiltin)
    (input : Payload) (cancellation : Cancellation) (id : Id) (start : Time.Timestamp)
    (world : σ) :
    let g := Graph.ofDefinition d
    let run := e.execute d input cancellation id start world
    run.state.Within g.reachable ∧
    (∀ x ∈ g.unreachable, x ∉ run.state.executed ∧ x ∉ run.state.pending) ∧
    ∀ nodes, e.prepare d = .ok nodes →
      ∀ k s m, Steps nodes (some (e.deadline cancellation)) k (opening d input id start)
          ⟨world, 0⟩ s m →
        s.Within g.reachable ∧
        ∀ x rest, s.pending = x :: rest → ∃ n, nodes.find? (·.id = x) = some n := by
  intro g run
  have hstart : d.startNode ∈ g.reachable :=
    Graph.startNode_mem_reachable (Definition.sound_of_validate hvalid).start_mem
  have hsteps {nodes : List (Prepared σ)} (h : e.prepare d = .ok nodes) {k : Nat} {s : State}
      {m : Moment σ} (hsteps : Steps nodes (some (e.deadline cancellation)) k
        (opening d input id start) ⟨world, 0⟩ s m) : s.Within g.reachable :=
    hsteps.within (confines_reachable hbuiltin h) (within_opening hstart input id start)
  have hrun : run.state.Within g.reachable := by
    cases hprepare : e.prepare d with
    | error reason =>
      have heq := Engine.execute_of_prepare_eq_error input id start world hprepare cancellation
      change State.Within _ (e.execute d input cancellation id start world).state
      rw [heq]
      nofun
    | ok nodes =>
      obtain ⟨k, s, m, htaken, hfinish⟩ :=
        execute_finishes hprepare input cancellation id start world
      exact hfinish.within (hsteps hprepare htaken)
  refine ⟨hrun, ?_, ?_⟩
  · intro x hx
    have hnot := Graph.notMem_reachable_of_mem_unreachable hx
    exact ⟨fun hran => hnot (hrun x (List.mem_append_left _ hran)),
      fun hwaits => hnot (hrun x (List.mem_append_right _ hwaits))⟩
  · intro nodes h k s m htaken
    refine ⟨hsteps h htaken, ?_⟩
    intro x rest hwaits
    have hx : x ∈ g.reachable := (hsteps h htaken).mem_of_waits hwaits
    have hknown : x ∈ nodes.map Prepared.id := by
      rw [Engine.ids_of_prepare h]
      exact Graph.mem_nodeIds_of_mem_reachable hx
    rw [← Option.ne_none_iff_exists']
    exact fun hnone => find?_id_eq_none.1 hnone hknown

/-- A choice between two nodes, with a third one that nothing leads to. -/
def choice : Definition where
  id := "choice"
  startNode := "check"
  nodes :=
    [{ id := "check", name := "Check", nodeType := "condition",
       config := [("field", .string "ready"), ("operator", .string "=="),
         ("value", .bool true), ("true_branch", .string "left"),
         ("false_branch", .string "right")] },
      { id := "left", name := "Left", nodeType := "condition",
        config := [("field", .string "ready"), ("operator", .string "==")] },
      { id := "right", name := "Right", nodeType := "condition",
        config := [("field", .string "ready"), ("operator", .string "==")] },
      { id := "spare", name := "Spare", nodeType := "condition",
        config := [("field", .string "ready"), ("operator", .string "==")],
        nextNodes := ["left"] }]

def choiceEngine : Engine Unit where
  config := {}
  registry := .builtins
    { network := fun _ world => (.now none, world)
      generator := .disabled
      scripts := {}
      workers := fun world => (⟨1, .zero, fun _ => 0⟩, world)
      now := 0 }

theorem execute_reachable_choice :
    let g := Graph.ofDefinition choice
    let s := (choiceEngine.execute choice [("ready", .bool true)] .never ⟨[]⟩ ⟨0, 0⟩ ()).state
    choice.validate = .ok () ∧ choiceEngine.registry.IsBuiltin ∧
      s.executed = ["check", "left"] ∧ s.Within g.reachable ∧
      g.unreachable = ["spare"] ∧ "spare" ∉ s.executed := by
  intro g s
  have hvalid : choice.validate = .ok () := by decide +kernel
  have hbuiltin : choiceEngine.registry.IsBuiltin := Node.Registry.isBuiltin_builtins _
  have hunreachable : g.unreachable = ["spare"] := by cbv
  obtain ⟨hwithin, hspare, -⟩ :=
    execute_reachable hvalid hbuiltin [("ready", .bool true)] .never ⟨[]⟩ ⟨0, 0⟩ ()
  exact ⟨hvalid, hbuiltin, by decide +kernel, hwithin, hunreachable,
    (hspare "spare" (hunreachable ▸ List.mem_cons_self)).1⟩

end Workflow.Run
