import FluaLibs.NvBorrowing

/-! # A table of lists that is not moved

`move_nvlist_array` takes the lists out of the userdata of its table one by one, before it
has looked at the ones that follow.  When it meets an element that it cannot take it
destroys the ones it has.  So a table that is refused is left as it was exactly when its
first element is the one that is refused (`move_nvlist_array_keeps_iff`).
-/
namespace FluaLibs
namespace Nv

/-- The error for an element that is not taken. -/
def refusal (s : State) (v : Nat) : String :=
  if (s.checkcookie .nvlist v).isNone then "nvlists expected" else "nvlist has error"

/-- `l_nvlist_move_nvlist_array`, with the error it raises. -/
def l_nvlist_move_nvlist_array (s : State) (u : Nat) (name : String) (vs : List Nat) :
    State × Option String :=
  match s.checknvlist u with
  | none => (s, some "nvlist_t expected")
  | some nvl =>
    if vs = [] then (s, some "cannot be empty")
    else match s.moveValues [] vs with
      | (s', values, true) =>
        (s'.withHeap (s.heap.move_nvpair nvl name .NVLIST_ARRAY values), none)
      | (s', values, false) =>
        (s'.withHeap (values.foldl Forest.destroy s.heap),
          (vs[values.length]?).map (refusal s'))

/-- The states are those of the system. -/
theorem l_nvlist_move_nvlist_array_state (s : State) (u : Nat) (name : String) (vs : List Nat) :
    (l_nvlist_move_nvlist_array s u name vs).1 = next s (.move_nvlist_array u name vs) := by
  rw [l_nvlist_move_nvlist_array, next]
  cases s.checknvlist u with
  | none => rfl
  | some nvl =>
    dsimp only
    split
    · rfl
    · rcases s.moveValues [] vs with ⟨s', values, _ | _⟩ <;> rfl

/-- Some element is not a list that can be moved, or occurs twice. -/
def Unmovable (s : State) (vs : List Nat) : Prop :=
  (∃ v ∈ vs, s.checknvlist v = none) ∨ ¬ vs.Nodup

/-- What the userdata has it still has, and that has not been touched. -/
def Unharmed (s s' : State) (v : Nat) : Prop :=
  s'.pointer v = s.pointer v ∧ ∀ kind n, s.pointer v = some (kind, n) →
    s'.heap.freed n = s.heap.freed n ∧ s'.heap.error n = s.heap.error n

/-- The call raises an error, and every element of the table is as it was. -/
def Keeps (s : State) (u : Nat) (name : String) (vs : List Nat) : Prop :=
  (l_nvlist_move_nvlist_array s u name vs).2 ≠ none ∧
    ∀ v ∈ vs, Unharmed s (l_nvlist_move_nvlist_array s u name vs).1 v

section Moving
variable {s : State} {vs : List Nat}

theorem pointer_clear_self (s : State) (v : Nat) : (s.clear v).pointer v = none := by
  rw [s.pointer_clear]
  exact if_pos rfl

/-- A userdata that has been cleared stays so. -/
theorem moveValues_pointer {w : Nat} (values : List Nat) (h : s.pointer w = none) :
    (s.moveValues values vs).1.pointer w = none := by
  induction vs generalizing s values with
  | nil => exact h
  | cons v vs ih =>
    unfold State.moveValues
    split
    · exact h
    · refine ih _ ?_
      rw [s.pointer_clear]
      split
      · rfl
      · exact h

/-- The loop comes to its end only if it can move every element. -/
theorem moveValues_ended {values : List Nat} (h : (s.moveValues values vs).2.2 = true) :
    (∀ v ∈ vs, s.checknvlist v ≠ none) ∧ vs.Nodup := by
  induction vs generalizing s values with
  | nil => exact ⟨(fun v hv => nomatch hv), List.nodup_nil⟩
  | cons v vs ih =>
    unfold State.moveValues at h
    split at h
    · cases h
    · rename_i n hv
      obtain ⟨hmovable, hnodup⟩ := ih h
      have hne : ∀ w ∈ vs, w ≠ v ∧ s.checknvlist w ≠ none := by
        intro w hw
        have hsome := hmovable w hw
        rw [s.checknvlist_clear] at hsome
        split at hsome
        · exact absurd rfl hsome
        · exact ⟨by assumption, hsome⟩
      refine ⟨fun w hw => ?_, List.nodup_cons.mpr ⟨fun hmem => (hne v hmem).1 rfl, hnodup⟩⟩
      rcases List.mem_cons.mp hw with rfl | hw
      · rw [hv]
        exact Option.some_ne_none n
      · exact (hne w hw).2

/-- When it does not, the element it stops at is there. -/
theorem moveValues_stopped {values : List Nat} (h : (s.moveValues values vs).2.2 = false) :
    (s.moveValues values vs).2.1.length < values.length + vs.length := by
  induction vs generalizing s values with
  | nil => cases h
  | cons v vs ih =>
    unfold State.moveValues at h ⊢
    split
    · simp
    · rename_i n hv
      rw [hv] at h
      have hlt := ih h
      simp only [List.length_append, List.length_cons, List.length_nil] at hlt ⊢
      omega

/-- A table that cannot be moved is refused. -/
theorem moveValues_of_unmovable (h : Unmovable s vs) (values : List Nat) :
    (s.moveValues values vs).2.2 = false := by
  rw [← Bool.not_eq_true]
  intro hended
  obtain ⟨hmovable, hnodup⟩ := moveValues_ended hended
  rcases h with ⟨v, hv, hnone⟩ | hdup
  · exact hmovable v hv hnone
  · exact hdup hnodup

theorem move_nvlist_array_raises (h : Unmovable s vs) (u : Nat) (name : String) :
    (l_nvlist_move_nvlist_array s u name vs).2 ≠ none := by
  rw [l_nvlist_move_nvlist_array]
  cases s.checknvlist u with
  | none => exact Option.some_ne_none _
  | some nvl =>
    dsimp only
    split
    · exact Option.some_ne_none _
    · have hstopped := moveValues_of_unmovable h []
      have hlt := moveValues_stopped hstopped
      generalize s.moveValues [] vs = out at hstopped hlt
      obtain ⟨s', values, ended⟩ := out
      dsimp only at hstopped hlt
      subst hstopped
      dsimp only
      rw [List.getElem?_eq_getElem (by simpa using hlt)]
      exact Option.some_ne_none _

/-- The first list, if it is taken out of its userdata, is not put back. -/
theorem move_nvlist_array_takes {u v nvl n : Nat} (h : Unmovable s (v :: vs))
    (hu : s.checknvlist u = some nvl) (hv : s.checknvlist v = some n) (name : String) :
    (l_nvlist_move_nvlist_array s u name (v :: vs)).1.pointer v = none := by
  have hstopped := moveValues_of_unmovable h []
  have hpointer : (s.moveValues [] (v :: vs)).1.pointer v = none := by
    unfold State.moveValues
    rw [hv]
    exact moveValues_pointer _ (pointer_clear_self s v)
  rw [l_nvlist_move_nvlist_array, hu]
  dsimp only
  rw [if_neg (List.cons_ne_nil v vs)]
  generalize s.moveValues [] (v :: vs) = out at hstopped hpointer
  obtain ⟨s', values, ended⟩ := out
  dsimp only at hstopped hpointer
  subst hstopped
  exact hpointer

/-- **A table that cannot be moved is left as it was** exactly when the receiver is refused
before the table is looked at, or the first element is the one that is refused. -/
theorem move_nvlist_array_keeps_iff (h : Unmovable s vs) (u : Nat) (name : String) :
    Keeps s u name vs ↔
      s.checknvlist u = none ∨ ∃ v ∈ vs.head?, s.checknvlist v = none := by
  have hraises := move_nvlist_array_raises h u name
  have hsame (hstate : (l_nvlist_move_nvlist_array s u name vs).1 = s) : Keeps s u name vs := by
    refine ⟨hraises, fun v _ => ?_⟩
    rw [hstate]
    exact ⟨rfl, fun _ _ _ => ⟨rfl, rfl⟩⟩
  cases hu : s.checknvlist u with
  | none =>
    refine iff_of_true (hsame ?_) (Or.inl rfl)
    rw [l_nvlist_move_nvlist_array, hu]
  | some nvl =>
    match vs with
    | [] =>
      rcases h with ⟨v, hv, -⟩ | hdup
      · cases hv
      · exact absurd List.nodup_nil hdup
    | v :: vs =>
      cases hv : s.checknvlist v with
      | none =>
        refine iff_of_true (hsame ?_) (Or.inr ⟨v, rfl, hv⟩)
        simp [l_nvlist_move_nvlist_array, hu, State.moveValues, hv, State.withHeap]
      | some n =>
        have hown : s.pointer v = some (.nvlist, n) := State.owns_of_checknvlist hv
        refine iff_of_false (fun hkeeps => ?_) ?_
        · have hkept := (hkeeps.2 v (List.mem_cons_self ..)).1
          rw [move_nvlist_array_takes h hu hv, hown] at hkept
          cases hkept
        · rintro (hnone | ⟨w, hw, hnone⟩)
          · cases hnone
          · cases hw
            rw [hv] at hnone
            cases hnone

end Moving

/-- Two lists, each in its userdata. -/
def twoLists : State where
  heap := [⟨.nvlist 0 false 0, [], 0⟩, ⟨.nvlist 0 false 0, [], 0⟩]
  userdata := [⟨.nvlist, some 0, none, false⟩, ⟨.nvlist, some 1, none, false⟩]

/-- Number 7 is no userdata. -/
theorem move_nvlist_array_keeps_iff_first : Keeps twoLists 0 "a" [7, 1] :=
  (move_nvlist_array_keeps_iff (Or.inl ⟨7, by decide, by decide⟩) 0 "a").mpr
    (Or.inr ⟨7, rfl, by decide⟩)

/-- The list that is given twice is destroyed, and its userdata is left without it. -/
theorem not_move_nvlist_array_keeps :
    (system.run [.create 0, .create 0] = some twoLists ∧
      (l_nvlist_move_nvlist_array twoLists 0 "a" [1, 1]).2 = some "nvlists expected" ∧
      (l_nvlist_move_nvlist_array twoLists 0 "a" [1, 1]).1.heap.freed 1 = 1) ∧
    ¬ ∀ s, system.Reachable s → ∀ u name vs, Unmovable s vs → Keeps s u name vs := by
  have hrun : system.run [.create 0, .create 0] = some twoLists := by decide
  refine ⟨⟨hrun, by decide, by decide⟩, fun h => ?_⟩
  have hkeeps := h twoLists (System.run_reachable hrun) 0 "a" [1, 1] (Or.inr (by decide))
  have hpointer := (hkeeps.2 1 (by decide)).1
  revert hpointer
  decide

end Nv
end FluaLibs
