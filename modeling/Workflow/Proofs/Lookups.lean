import Workflow.Template.Lookup

/-!
Looking up by paths. A path is walked key by key, from the object of all the data; so a path that is
put together from two is followed by following the first and then, inside the object that it leads
to, the second. Without such an object it leads nowhere. No other function follows paths in this
way.
-/
namespace Workflow.Template

/-! ## Walks -/

theorem foldlM_field?_eq_none {v : Json} (hv : ∀ fields, v ≠ .object fields) {keys : List String}
    (hkeys : keys ≠ []) : keys.foldlM Json.field? v = none := by
  obtain ⟨key, rest, rfl⟩ := List.exists_cons_of_ne_nil hkeys
  rw [List.foldlM_cons]
  cases v with
  | object fields => exact absurd rfl (hv fields)
  | _ => rfl

theorem foldlM_field?_cons (data : Payload) (key : String) (keys : List String) :
    (key :: keys).foldlM Json.field? (.object data) =
      (Payload.find? data key).bind (keys.foldlM Json.field?) :=
  List.foldlM_cons

/-- The first key is looked up like the others, as one of the object of all the data. -/
theorem lookupKeys_eq {keys : List String} (h : keys ≠ []) (data : Payload) :
    lookupKeys data keys = keys.foldlM Json.field? (.object data) := by
  fun_induction lookupKeys data keys with
  | case1 => exact absurd rfl h
  | case2 data key =>
    rw [foldlM_field?_cons]
    exact (Option.bind_fun_some _).symm
  | case3 data key fields next rest hfound ih =>
    rw [ih (List.cons_ne_nil next rest), foldlM_field?_cons data key, hfound, Option.bind_some]
  | case4 data key next rest hfound =>
    rw [foldlM_field?_cons]
    cases hkey : Payload.find? data key with
    | none => rfl
    | some v =>
      have hv : ∀ fields, v ≠ .object fields := fun fields heq => hfound fields (by rw [hkey, heq])
      exact (foldlM_field?_eq_none hv (List.cons_ne_nil next rest)).symm

theorem lookup_eq (data : Payload) (path : String) :
    lookup data path = (Text.split '.' path).foldlM Json.field? (.object data) :=
  lookupKeys_eq (Text.split_ne_nil '.' path) data

/-- The walk goes on where that of the path in front ends. -/
theorem lookup_joined (data : Payload) (p q : String) : lookup data (p ++ "." ++ q) =
    (lookup data p).bind ((Text.split '.' q).foldlM Json.field?) := by
  have hjoined : (p ++ "." ++ q).toList = p.toList ++ '.' :: q.toList := by simp
  rw [lookup_eq, Text.split_of_joined hjoined, List.foldlM_append, lookup_eq]
  rfl

theorem lookup_key {key : String} (h : '.' ∉ key.toList) (data : Payload) :
    lookup data key = Payload.find? data key := by
  rw [lookup, Text.split_of_notMem h, lookupKeys_single]

/-! ## Laws -/

/-- The laws of following paths. -/
structure Composes (look : Payload → String → Option Json) : Prop where
  inside : ∀ data p q fields, look data p = some (.object fields) →
    look data (p ++ "." ++ q) = look fields q
  missing : ∀ data p q, (∀ fields, look data p ≠ some (.object fields)) →
    look data (p ++ "." ++ q) = none
  key : ∀ data key, '.' ∉ key.toList → look data key = Payload.find? data key

theorem composes_lookup : Composes lookup where
  inside data p q fields h := by
    rw [lookup_joined, h, Option.bind_some, lookup_eq]
  missing data p q h := by
    rw [lookup_joined]
    cases hp : lookup data p with
    | none => rfl
    | some v =>
      have hv : ∀ fields, v ≠ .object fields := fun fields heq => h fields (by rw [hp, heq])
      exact foldlM_field?_eq_none hv (Text.split_ne_nil '.' q)
  key data key h := lookup_key h data

theorem exists_joined {path : String} (h : '.' ∈ path.toList) :
    ∃ key rest, '.' ∉ key.toList ∧ path = key ++ "." ++ rest ∧
      rest.toList.length < path.toList.length := by
  cases hcut : Text.cut? '.' path.toList with
  | none => exact absurd h (Text.cut?_eq_none_iff.1 hcut)
  | some cut =>
    obtain ⟨front, behind⟩ := cut
    obtain ⟨hfront, hpath⟩ := Text.cut?_eq_some_iff.1 hcut
    refine ⟨.ofList front, .ofList behind, ?_, String.toList_injective ?_, ?_⟩
    · rwa [String.toList_ofList]
    · simp [hpath]
    · rw [String.toList_ofList]
      exact Text.length_of_cut? hcut

/-- The laws leave no choice: of a path with a dot they settle the first key, and then the shorter
path behind it. -/
theorem Composes.eq_lookup {look : Payload → String → Option Json} (h : Composes look)
    (data : Payload) (path : String) : look data path = lookup data path := by
  induction hlength : path.toList.length using Nat.strongRecOn generalizing data path with
  | ind n ih =>
    by_cases hdot : '.' ∈ path.toList
    · obtain ⟨key, rest, hkey, rfl, hrest⟩ := exists_joined hdot
      have hsame : look data key = lookup data key := by
        rw [h.key data key hkey, lookup_key hkey]
      by_cases hobject : ∃ fields, lookup data key = some (.object fields)
      · obtain ⟨fields, hfields⟩ := hobject
        rw [h.inside data key rest fields (hsame.trans hfields),
          composes_lookup.inside data key rest fields hfields]
        exact ih _ (hlength ▸ hrest) fields rest rfl
      · rw [not_exists] at hobject
        rw [h.missing data key rest (by rwa [hsame]), composes_lookup.missing data key rest hobject]
    · rw [h.key data path hdot, lookup_key hdot]

/-- Paths compose, wherever they are cut. A path behind another one is followed inside the object
that the other leads to, and leads nowhere when that is missing or no object; a key without a dot
leads to its entry. Nothing else follows paths in this way. -/
theorem lookup_composes :
    Composes lookup ∧ ∀ look : Payload → String → Option Json, Composes look → look = lookup := by
  refine ⟨composes_lookup, ?_⟩
  intro look h
  funext data path
  exact h.eq_lookup data path

/-- A path through an empty key, and one through a number. -/
theorem lookup_composes_user :
    let inner : Payload := [("", .object [("name", .string "ada")])]
    let data : Payload := [("n", .ofInt 3), ("user", .object inner)]
    lookup data "user" = some (.object inner) ∧
      lookup data ("user" ++ "." ++ ".name") = lookup inner ".name" ∧
      lookup inner ".name" = some (.string "ada") ∧
      (∀ fields, lookup data "n" ≠ some (.object fields)) ∧
      lookup data ("n" ++ "." ++ "deeper") = none := by
  intro inner data
  have hobject : lookup data "user" = some (.object inner) := rfl
  have hnumber : ∀ fields, lookup data "n" ≠ some (.object fields) := by
    intro fields h
    cases h
  obtain ⟨hcomposes, -⟩ := lookup_composes
  exact ⟨hobject, hcomposes.inside data "user" ".name" inner hobject, rfl, hnumber,
    hcomposes.missing data "n" "deeper" hnumber⟩

end Workflow.Template
