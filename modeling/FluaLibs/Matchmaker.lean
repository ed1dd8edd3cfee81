import FluaLibs.Transition

/-! # Matchmaking

What a meeting point is for, stated without threads: parties make offers, and
two offers that are not yet matched may be matched with each other.  A `Matching`
carries its own laws — the partner of the partner is oneself, and nobody is
matched with oneself — so an offer matched twice cannot be expressed.
-/
namespace FluaLibs

/-- A partial matching on `ι`. -/
structure Matching (ι : Type) where
  partner : ι → Option ι
  symm : ∀ i j, partner i = some j → partner j = some i
  irrefl : ∀ i, partner i ≠ some i

namespace Matching
variable {ι : Type}

/-- Nobody is matched. -/
def empty : Matching ι where
  partner _ := none
  symm _ _ h := by cases h
  irrefl _ h := by cases h

@[simp] theorem empty_partner (i : ι) : (empty : Matching ι).partner i = none := rfl

section Pair
variable [DecidableEq ι] (m : Matching ι) {i j : ι} (hi : m.partner i = none)
  (hj : m.partner j = none) (hne : i ≠ j)

/-- Match two parties that have no partner yet. -/
def pair : Matching ι where
  partner k := if k = i then some j else if k = j then some i else m.partner k
  symm k l h := by
    by_cases hki : k = i
    · have hl : l = j := by simpa [hki] using h.symm
      simp [hki, hl, hne.symm]
    · by_cases hkj : k = j
      · have hl : l = i := by simpa [hki, hkj, hne.symm] using h.symm
        simp [hkj, hl]
      · have hkl : m.partner k = some l := by simpa [hki, hkj] using h
        have hlk := m.symm k l hkl
        have hli : l ≠ i := by rintro rfl; simp [hi] at hlk
        have hlj : l ≠ j := by rintro rfl; simp [hj] at hlk
        simpa [hli, hlj] using hlk
  irrefl k h := by
    by_cases hki : k = i
    · subst hki
      have : j = k := by simpa using h
      exact hne this.symm
    · by_cases hkj : k = j
      · subst hkj
        have : i = k := by simpa [hki] using h
        exact hne this
      · exact m.irrefl k (by simpa [hki, hkj] using h)

@[simp] theorem pair_left : (m.pair hi hj hne).partner i = some j := by simp [pair]

@[simp] theorem pair_right : (m.pair hi hj hne).partner j = some i := by
  simp [pair, hne.symm]

theorem pair_of_ne {k : ι} (hki : k ≠ i) (hkj : k ≠ j) :
    (m.pair hi hj hne).partner k = m.partner k := by
  simp [pair, hki, hkj]

/-- Whoever was matched keeps the partner. -/
theorem pair_mono {k l : ι} (h : m.partner k = some l) :
    (m.pair hi hj hne).partner k = some l := by
  have hki : k ≠ i := by rintro rfl; simp [hi] at h
  have hkj : k ≠ j := by rintro rfl; simp [hj] at h
  rw [pair_of_ne m hi hj hne hki hkj, h]

theorem pair_partner_iff {k l : ι} :
    (m.pair hi hj hne).partner k = some l ↔
      m.partner k = some l ∨ (k = i ∧ l = j) ∨ (k = j ∧ l = i) := by
  by_cases hki : k = i
  · subst hki
    simp [hi, hne, eq_comm]
  · by_cases hkj : k = j
    · subst hkj
      simp [hj, hki, eq_comm]
    · simp [pair_of_ne m hi hj hne hki hkj, hki, hkj]

end Pair
end Matching

/-- The state of a matchmaker: the offers made so far, in order, and who is
matched with whom. -/
structure Matchmaker (α : Type) where
  offers : List α
  matching : Matching Nat
  bound : ∀ i j, matching.partner i = some j → i < offers.length

namespace Matchmaker
variable {α : Type}

/-- An offer is made, or two offers are matched. -/
inductive Event (α : Type) where
  | offer (a : α)
  | pair (i j : Nat)

/-- Two offers may be matched when they are different and neither has a partner. -/
structure CanPair (a : Matchmaker α) (i j : Nat) : Prop where
  left : i < a.offers.length
  right : j < a.offers.length
  free_left : a.matching.partner i = none
  free_right : a.matching.partner j = none
  ne : i ≠ j

instance (a : Matchmaker α) (i j : Nat) : Decidable (a.CanPair i j) :=
  decidable_of_iff (i < a.offers.length ∧ j < a.offers.length ∧ a.matching.partner i = none ∧
      a.matching.partner j = none ∧ i ≠ j)
    ⟨fun h => ⟨h.1, h.2.1, h.2.2.1, h.2.2.2.1, h.2.2.2.2⟩,
      fun h => ⟨h.left, h.right, h.free_left, h.free_right, h.ne⟩⟩

/-- A new offer, not matched with anyone. -/
def offer (a : Matchmaker α) (x : α) : Matchmaker α where
  offers := a.offers ++ [x]
  matching := a.matching
  bound i j h := by
    have := a.bound i j h
    simp only [List.length_append, List.length_singleton]
    omega

/-- Two offers are matched. -/
def join (a : Matchmaker α) {i j : Nat} (h : a.CanPair i j) : Matchmaker α where
  offers := a.offers
  matching := a.matching.pair h.free_left h.free_right h.ne
  bound k l hkl := by
    by_cases hki : k = i
    · exact hki ▸ h.left
    · by_cases hkj : k = j
      · exact hkj ▸ h.right
      · rw [a.matching.pair_of_ne h.free_left h.free_right h.ne hki hkj] at hkl
        exact a.bound k l hkl

/-- The matchmaker as a transition system. -/
def system (α : Type) : System (Matchmaker α) (Event α) where
  init := ⟨[], Matching.empty, fun _ _ h => by cases h⟩
  Enabled a
    | .offer _ => True
    | .pair i j => a.CanPair i j
  decEnabled a
    | .offer _ => isTrue trivial
    | .pair i j => inferInstanceAs (Decidable (a.CanPair i j))
  next a
    | .offer x => a.offer x
    | .pair i j => if h : a.CanPair i j then a.join h else a

theorem offer_replay (a : Matchmaker α) (x : α) :
    (system α).replay a [.offer x] = some (a.offer x) := by
  have he : (system α).Enabled a (.offer x) := trivial
  exact (system α).replay_cons_of_enabled he rfl

theorem pair_replay {a : Matchmaker α} {i j : Nat} (h : a.CanPair i j) :
    (system α).replay a [.pair i j] = some (a.join h) := by
  have hn : (system α).next a (.pair i j) = a.join h := by simp [system, h]
  exact (system α).replay_cons_of_enabled (e := Event.pair i j) h (by rw [hn]; rfl)

/-- `a'` has what `a` has, and perhaps more offers and more matches. -/
structure Extends (a a' : Matchmaker α) : Prop where
  offers : ∀ (i : Nat) (x : α), a.offers[i]? = some x → a'.offers[i]? = some x
  partner : ∀ i j, a.matching.partner i = some j → a'.matching.partner i = some j

theorem Extends.refl (a : Matchmaker α) : a.Extends a := ⟨fun _ _ h => h, fun _ _ h => h⟩

theorem offer_extends (a : Matchmaker α) (x : α) : a.Extends (a.offer x) where
  offers i y h := by
    have hlt := (List.getElem?_eq_some_iff.mp h).1
    rw [offer, List.getElem?_append_left hlt, h]
  partner _ _ h := h

theorem join_extends {a : Matchmaker α} {i j : Nat} (h : a.CanPair i j) :
    a.Extends (a.join h) where
  offers _ _ hx := hx
  partner _ _ hkl := a.matching.pair_mono h.free_left h.free_right h.ne hkl

/-- The offers that a match is not about stay free. -/
theorem join_free {a : Matchmaker α} {i j k : Nat} (h : a.CanPair i j) (hki : k ≠ i) (hkj : k ≠ j)
    (hk : a.matching.partner k = none) : (a.join h).matching.partner k = none := by
  rw [join, a.matching.pair_of_ne h.free_left h.free_right h.ne hki hkj, hk]

end Matchmaker
end FluaLibs
