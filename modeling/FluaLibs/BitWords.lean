import Mathlib.Algebra.BigOperators.Fin
import Mathlib.Data.Finset.Max
import Mathlib.Data.Finset.SymmDiff

/-! # Sets of numbers as the bits of words

A set of numbers below `64 * k` is kept in `k` words: the number `n` is the bit `n % 64` of the
word `n / 64`.  The operations are those of `bitset(9)`, on words; `denote` is the set that the
words stand for, and each operation is what it is called on sets.  A number that is too large has
its word outside.
-/
namespace FluaLibs

/-- The words of a set. -/
abbrev BitWords (k : Nat) : Type := Fin k → BitVec 64

namespace BitWords
variable {k : Nat}

/-- The mask with the bit of a number. -/
def mask (n : Nat) : BitVec 64 := BitVec.twoPow 64 (n % 64)

/-- The word of a number, if it is inside. -/
def word (k n : Nat) : Option (Fin k) := if h : n / 64 < k then some ⟨n / 64, h⟩ else none

/-! ## The operations -/

def zero : BitWords k := fun _ => 0

def fill : BitWords k := fun _ => BitVec.allOnes 64

/-- A change of the word of a number. -/
def update (f : BitVec 64 → BitVec 64 → BitVec 64) (n : Nat) (s : BitWords k) :
    Option (BitWords k) :=
  (word k n).map (fun i => Function.update s i (f (s i) (mask n)))

/-- The number is put in. -/
def set (n : Nat) (s : BitWords k) : Option (BitWords k) := update (fun w m => w ||| m) n s

/-- The number is taken out. -/
def clr (n : Nat) (s : BitWords k) : Option (BitWords k) := update (fun w m => w &&& ~~~ m) n s

/-- The words are cleared first. -/
def setof (n : Nat) : Option (BitWords k) := update (fun _ m => m) n zero

/-- Whether the number is in. -/
def isset (n : Nat) (s : BitWords k) : Option Bool :=
  (word k n).map (fun i => decide (s i &&& mask n ≠ 0))

/-- What is in one of the two. -/
def or (s t : BitWords k) : BitWords k := fun i => s i ||| t i

def ornot (s t : BitWords k) : BitWords k := fun i => s i ||| ~~~ t i

/-- What is in both. -/
def and (s t : BitWords k) : BitWords k := fun i => s i &&& t i

/-- What is in the first and not in the second. -/
def andnot (s t : BitWords k) : BitWords k := fun i => s i &&& ~~~ t i

/-- What is in one of the two only. -/
def xor (s t : BitWords k) : BitWords k := fun i => s i ^^^ t i

def empty (s : BitWords k) : Bool := decide (∀ i, s i = 0)

def isfullset (s : BitWords k) : Bool := decide (∀ i, s i = BitVec.allOnes 64)

/-- Whether the second set is part of the first. -/
def subset (s t : BitWords k) : Bool := decide (∀ i, s i &&& t i = t i)

/-- Whether the two have a number in common. -/
def overlap (s t : BitWords k) : Bool := decide (∃ i, s i &&& t i ≠ 0)

/-- Whether the two differ. -/
def cmp (s t : BitWords k) : Bool := decide (∃ i, s i ≠ t i)

/-- The number of bits of a word. -/
def popcount (w : BitVec 64) : Nat := ((Finset.range 64).filter (fun b => w.getLsbD b)).card

/-- How many numbers there are. -/
def count (s : BitWords k) : Nat := ∑ i, popcount (s i)

/-- The first bit of a word, from 1 on, or 0. -/
def ffsl (w : BitVec 64) : Nat := ((List.range 64).find? (fun b => w.getLsbD b)).elim 0 (· + 1)

/-- The first number, from 1 on, or 0. -/
def ffs (s : BitWords k) : Nat :=
  ((List.finRange k).find? (fun i => s i ≠ 0)).elim 0 (fun i => 64 * i + ffsl (s i))

/-! ## The set -/

/-- The numbers whose bits are set. -/
def denote (s : BitWords k) : Finset Nat :=
  (Finset.range (64 * k)).filter (fun n => (word k n).any (fun i => (s i).getLsbD (n % 64)))

/-- The first number of a set, from 1 on, or 0. -/
def first (A : Finset Nat) : Nat := if h : A.Nonempty then A.min' h + 1 else 0

/-- The number of a bit. -/
def place (i : Fin k) (b : Nat) : Nat := 64 * i + b

section Places
variable {i : Fin k} {b n : Nat} {s t : BitWords k}

theorem place_div (hb : b < 64) : place i b / 64 = i := by
  rw [place, Nat.mul_add_div (by decide), Nat.div_eq_of_lt hb, Nat.add_zero]

theorem place_mod (hb : b < 64) : place i b % 64 = b := by
  rw [place, Nat.mul_add_mod, Nat.mod_eq_of_lt hb]

theorem place_lt (hb : b < 64) : place i b < 64 * k := by
  have hi := i.isLt
  rw [place]
  omega

theorem word_place (hb : b < 64) : word k (place i b) = some i := by
  have hdiv := place_div (i := i) hb
  rw [word, dif_pos (hdiv ▸ i.isLt)]
  exact congrArg some (Fin.ext hdiv)

/-- Every number that is small enough is the number of a bit. -/
theorem exists_place (hn : n < 64 * k) : ∃ i : Fin k, ∃ b, b < 64 ∧ n = place i b :=
  ⟨⟨n / 64, by omega⟩, n % 64, Nat.mod_lt _ (by decide), (Nat.div_add_mod n 64).symm⟩

theorem place_inj {j : Fin k} {c : Nat} (hb : b < 64) (hc : c < 64) :
    place i b = place j c ↔ i = j ∧ b = c := by
  constructor
  · intro h
    refine ⟨Fin.ext ?_, ?_⟩
    · rw [← place_div (i := i) hb, h, place_div hc]
    · rw [← place_mod (i := i) hb, h, place_mod hc]
  · rintro ⟨rfl, rfl⟩
    rfl

/-- A number that is too large has no word. -/
theorem word_eq_none (hn : 64 * k ≤ n) : word k n = none :=
  dif_neg (fun h => by omega)

/-- A number is in the set when its bit is set. -/
theorem mem_denote_place (hb : b < 64) : place i b ∈ denote s ↔ (s i).getLsbD b = true := by
  rw [denote, Finset.mem_filter, word_place hb, place_mod hb, Finset.mem_range, Option.any_some]
  exact and_iff_right (place_lt hb)

theorem lt_of_mem_denote (h : n ∈ denote s) : n < 64 * k :=
  Finset.mem_range.mp (Finset.mem_filter.mp h).1

theorem denote_subset (s : BitWords k) : denote s ⊆ Finset.range (64 * k) :=
  Finset.filter_subset _ _

/-- **Bit by bit**: the set of the words is the one that has the same bits. -/
theorem denote_eq {A : Finset Nat} (hA : A ⊆ Finset.range (64 * k))
    (h : ∀ (i : Fin k) (b : Nat), b < 64 → ((s i).getLsbD b = true ↔ place i b ∈ A)) :
    denote s = A := by
  ext n
  constructor
  · intro hn
    obtain ⟨i, b, hb, rfl⟩ := exists_place (lt_of_mem_denote hn)
    exact (h i b hb).mp ((mem_denote_place hb).mp hn)
  · intro hn
    obtain ⟨i, b, hb, rfl⟩ := exists_place (Finset.mem_range.mp (hA hn))
    exact (mem_denote_place hb).mpr ((h i b hb).mpr hn)

/-- Words that stand for the same set are the same. -/
theorem denote_injective : Function.Injective (denote : BitWords k → Finset Nat) := by
  intro s t h
  funext i
  refine BitVec.eq_of_getLsbD_eq (fun b hb => ?_)
  rw [Bool.eq_iff_iff, ← mem_denote_place (s := s) hb, ← mem_denote_place (s := t) hb, h]

end Places

/-! ## What the operations are -/

section Operations
variable {n : Nat} {s t : BitWords k}

@[simp] theorem denote_zero : denote (zero : BitWords k) = ∅ := by
  refine denote_eq (Finset.empty_subset _) (fun i b hb => ?_)
  simp [zero]

@[simp] theorem denote_fill : denote (fill : BitWords k) = Finset.range (64 * k) := by
  refine denote_eq (Finset.Subset.refl _) (fun i b hb => ?_)
  rw [fill, BitVec.getLsbD_allOnes, decide_eq_true hb, Finset.mem_range]
  exact iff_of_true rfl (place_lt hb)

theorem denote_or : denote (or s t) = denote s ∪ denote t := by
  refine denote_eq (Finset.union_subset (denote_subset s) (denote_subset t)) (fun i b hb => ?_)
  rw [Finset.mem_union, mem_denote_place hb, mem_denote_place hb, or, BitVec.getLsbD_or,
    Bool.or_eq_true]

theorem denote_and : denote (and s t) = denote s ∩ denote t := by
  refine denote_eq (Finset.inter_subset_left.trans (denote_subset s)) (fun i b hb => ?_)
  rw [Finset.mem_inter, mem_denote_place hb, mem_denote_place hb, and, BitVec.getLsbD_and,
    Bool.and_eq_true]

theorem denote_andnot : denote (andnot s t) = denote s \ denote t := by
  refine denote_eq (Finset.sdiff_subset.trans (denote_subset s)) (fun i b hb => ?_)
  rw [Finset.mem_sdiff, mem_denote_place hb, mem_denote_place hb, andnot, BitVec.getLsbD_and,
    BitVec.getLsbD_not, decide_eq_true hb]
  simp

theorem denote_ornot :
    denote (ornot s t) = denote s ∪ (Finset.range (64 * k) \ denote t) := by
  refine denote_eq (Finset.union_subset (denote_subset s) Finset.sdiff_subset)
    (fun i b hb => ?_)
  rw [Finset.mem_union, Finset.mem_sdiff, mem_denote_place hb, mem_denote_place hb,
    Finset.mem_range, ornot, BitVec.getLsbD_or, BitVec.getLsbD_not, decide_eq_true hb]
  simp [place_lt hb]

/-- The words differ where exactly one of them has the bit. -/
theorem denote_xor : denote (xor s t) = symmDiff (denote s) (denote t) := by
  refine denote_eq (fun m hm => ?_) (fun i b hb => ?_)
  · rcases Finset.mem_symmDiff.mp hm with ⟨hs, -⟩ | ⟨ht, -⟩
    · exact denote_subset s hs
    · exact denote_subset t ht
  · rw [Finset.mem_symmDiff, mem_denote_place hb, mem_denote_place hb, xor, BitVec.getLsbD_xor]
    cases (s i).getLsbD b <;> cases (t i).getLsbD b <;> simp

/-! ### The operations with an index -/

/-- An operation with a number that is too large would write outside. -/
theorem update_eq_none {f : BitVec 64 → BitVec 64 → BitVec 64} (hn : 64 * k ≤ n) :
    update f n s = none := by
  rw [update, word_eq_none hn]
  rfl

/-- The mask has one bit. -/
theorem getLsbD_mask {i : Fin k} {b : Nat} (hb : b < 64) (c : Nat) :
    (mask (place i b)).getLsbD c = decide (b = c) := by
  rw [mask, place_mod hb, BitVec.getLsbD_twoPow, decide_eq_true hb, Bool.true_and]

/-- **A change of one bit**: where `f` changes no bit that is not in the mask, only this number
is affected. -/
theorem update_eq_some {f : BitVec 64 → BitVec 64 → BitVec 64} {A : Finset Nat} {i : Fin k}
    {b : Nat} (hb : b < 64) (hA : A ⊆ Finset.range (64 * k))
    (hself : ∀ c < 64, (f (s i) (mask (place i b))).getLsbD c = true ↔ place i c ∈ A)
    (hother : ∀ j ≠ i, ∀ c < 64, ((s j).getLsbD c = true ↔ place j c ∈ A)) :
    (update f (place i b) s).map denote = some A := by
  rw [update, word_place hb, Option.map_some, Option.map_some]
  refine congrArg some (denote_eq hA (fun j c hc => ?_))
  by_cases hj : j = i
  · subst hj
    rw [Function.update_self]
    exact hself c hc
  · rw [Function.update_of_ne hj]
    exact hother j hj c hc

/-- `set` puts a number into the set. -/
theorem denote_set (hn : n < 64 * k) : (set n s).map denote = some (insert n (denote s)) := by
  obtain ⟨i, b, hb, rfl⟩ := exists_place hn
  refine update_eq_some hb ?_ (fun c hc => ?_) (fun j hj c hc => ?_)
  · exact Finset.insert_subset (Finset.mem_range.mpr hn) (denote_subset s)
  · rw [BitVec.getLsbD_or, getLsbD_mask hb, Finset.mem_insert, mem_denote_place hc,
      place_inj hc hb, Bool.or_eq_true, decide_eq_true_eq, or_comm, and_iff_right rfl]
    exact or_congr_left eq_comm
  · rw [Finset.mem_insert, mem_denote_place hc, place_inj hc hb]
    simp [hj]

/-- `clr` takes it out. -/
theorem denote_clr (hn : n < 64 * k) : (clr n s).map denote = some ((denote s).erase n) := by
  obtain ⟨i, b, hb, rfl⟩ := exists_place hn
  refine update_eq_some hb ?_ (fun c hc => ?_) (fun j hj c hc => ?_)
  · exact (Finset.erase_subset _ _).trans (denote_subset s)
  · rw [BitVec.getLsbD_and, BitVec.getLsbD_not, getLsbD_mask hb, Finset.mem_erase,
      mem_denote_place hc, Ne, place_inj hc hb, decide_eq_true hc, Bool.true_and,
      Bool.and_eq_true, Bool.not_eq_true', decide_eq_false_iff_not, and_comm, and_iff_right rfl]
    exact and_congr_left' (not_congr eq_comm)
  · rw [Finset.mem_erase, mem_denote_place hc, Ne, place_inj hc hb]
    simp [hj]

theorem denote_setof (hn : n < 64 * k) :
    (setof n : Option (BitWords k)).map denote = some {n} := by
  obtain ⟨i, b, hb, rfl⟩ := exists_place hn
  refine update_eq_some hb ?_ (fun c hc => ?_) (fun j hj c hc => ?_)
  · exact Finset.singleton_subset_iff.mpr (Finset.mem_range.mpr hn)
  · rw [getLsbD_mask hb, Finset.mem_singleton, place_inj hc hb]
    simp [eq_comm]
  · rw [Finset.mem_singleton, place_inj hc hb]
    simp [zero, hj]

/-- `isset` looks whether it is in. -/
theorem isset_eq (hn : n < 64 * k) : isset n s = some (decide (n ∈ denote s)) := by
  obtain ⟨i, b, hb, rfl⟩ := exists_place hn
  rw [isset, word_place hb, Option.map_some, Option.some.injEq, decide_eq_decide,
    mem_denote_place hb, mask, place_mod hb]
  constructor
  · intro hne
    by_contra hbit
    refine hne (BitVec.eq_of_getLsbD_eq (fun c hc => ?_))
    rw [BitVec.getLsbD_and, BitVec.getLsbD_twoPow]
    by_cases hbc : b = c
    · subst hbc
      simp [hbit]
    · simp [hbc]
  · intro hbit hzero
    have hbits : (s i &&& BitVec.twoPow 64 b).getLsbD b = false := by
      rw [hzero]
      exact BitVec.getLsbD_zero
    rw [BitVec.getLsbD_and, hbit, BitVec.getLsbD_twoPow, decide_eq_true hb] at hbits
    simp at hbits

/-! ### The questions -/

/-- No bit is set exactly when the set is empty. -/
theorem empty_eq (s : BitWords k) : empty s = decide (denote s = ∅) := by
  rw [empty, decide_eq_decide, ← denote_zero (k := k), denote_injective.eq_iff, funext_iff]
  rfl

theorem isfullset_eq (s : BitWords k) :
    isfullset s = decide (denote s = Finset.range (64 * k)) := by
  rw [isfullset, decide_eq_decide, ← denote_fill, denote_injective.eq_iff, funext_iff]
  rfl

/-- The order of the arguments is that of `BIT_SUBSET`. -/
theorem subset_eq (s t : BitWords k) : subset s t = decide (denote t ⊆ denote s) := by
  rw [subset, decide_eq_decide, ← Finset.inter_eq_right, ← denote_and, denote_injective.eq_iff,
    funext_iff]
  rfl

theorem overlap_eq (s t : BitWords k) : overlap s t = decide (denote s ∩ denote t ≠ ∅) := by
  rw [overlap, decide_eq_decide, Ne, ← denote_and, ← denote_zero (k := k),
    denote_injective.eq_iff, funext_iff, not_forall]
  rfl

theorem cmp_eq (s t : BitWords k) : cmp s t = decide (denote s ≠ denote t) := by
  rw [cmp, decide_eq_decide, Ne, denote_injective.eq_iff, funext_iff, not_forall]

/-- **The numbers are counted** word by word. -/
theorem count_eq (s : BitWords k) : count s = (denote s).card := by
  unfold count popcount
  rw [← Finset.card_sigma]
  refine Finset.card_bij (fun p _ => place p.1 p.2) (fun p hp => ?_) (fun p hp q hq heq => ?_)
    (fun n hn => ?_)
  · rw [Finset.mem_sigma, Finset.mem_filter, Finset.mem_range] at hp
    exact (mem_denote_place hp.2.1).mpr hp.2.2
  · rw [Finset.mem_sigma, Finset.mem_filter, Finset.mem_range] at hp hq
    obtain ⟨hi, hb⟩ := (place_inj hp.2.1 hq.2.1).mp heq
    exact Sigma.ext hi (heq_of_eq hb)
  · obtain ⟨i, b, hb, rfl⟩ := exists_place (lt_of_mem_denote hn)
    refine ⟨⟨i, b⟩, ?_, rfl⟩
    rw [Finset.mem_sigma, Finset.mem_filter, Finset.mem_range]
    exact ⟨Finset.mem_univ i, hb, (mem_denote_place hb).mp hn⟩

/-- The first number is the least one. -/
theorem first_eq {A : Finset Nat} (hn : n ∈ A) (hle : ∀ m ∈ A, n ≤ m) : first A = n + 1 := by
  have hmin : A.min' ⟨n, hn⟩ = n :=
    Nat.le_antisymm (A.min'_le n hn) (hle _ (A.min'_mem ⟨n, hn⟩))
  rw [first, dif_pos ⟨n, hn⟩, hmin]

/-- The first bit of a word that has one. -/
theorem exists_ffsl {w : BitVec 64} (h : w ≠ 0) :
    ∃ b < 64, w.getLsbD b = true ∧ ffsl w = b + 1 ∧ ∀ c < b, w.getLsbD c = false := by
  cases hfind : (List.range 64).find? (fun b => w.getLsbD b) with
  | none =>
    refine absurd (BitVec.eq_of_getLsbD_eq (fun b hb => ?_)) h
    have hbit := List.find?_range_eq_none.mp hfind b hb
    rw [(Bool.not_eq_true' _).mp hbit]
    exact BitVec.getLsbD_zero.symm
  | some b =>
    obtain ⟨hbit, hmem, hbefore⟩ := List.find?_range_eq_some.mp hfind
    refine ⟨b, List.mem_range.mp hmem, hbit, ?_, fun c hc => ?_⟩
    · rw [ffsl, hfind]
      rfl
    · exact (Bool.not_eq_true' _).mp (hbefore c hc)

/-- **The first number** is the first bit of the first word that has one. -/
theorem ffs_eq (s : BitWords k) : ffs s = first (denote s) := by
  cases hfind : (List.finRange k).find? (fun i => s i ≠ 0) with
  | none =>
    have hzero : s = zero := by
      funext i
      have hi := List.find?_eq_none.mp hfind i (List.mem_finRange i)
      rw [decide_eq_true_eq, not_not] at hi
      exact hi
    rw [ffs, hfind, hzero, denote_zero]
    rfl
  | some i =>
    obtain ⟨hi, p, hp, hget, hbefore⟩ := List.find?_eq_some_iff_getElem.mp hfind
    have hpos : p = i := by
      rw [← hget, List.getElem_finRange]
      rfl
    obtain ⟨b, hb, hbit, hffsl, hfirst⟩ := exists_ffsl (of_decide_eq_true hi)
    have hmem := (mem_denote_place (s := s) hb).mpr hbit
    rw [ffs, hfind, first_eq hmem (fun m hm => ?_)]
    · rw [Option.elim_some, hffsl, place, Nat.add_assoc]
    · obtain ⟨j, c, hc, rfl⟩ := exists_place (lt_of_mem_denote hm)
      have hcbit := (mem_denote_place hc).mp hm
      rw [place, place]
      rcases Nat.lt_trichotomy i j with hlt | heq | hgt
      · omega
      · -- in the same word no bit before is set
        have hij : i = j := Fin.ext heq
        subst hij
        have hle : b ≤ c := by
          by_contra hlt
          rw [hfirst c (Nat.lt_of_not_le hlt)] at hcbit
          cases hcbit
        omega
      · -- the words before have none
        have hj := hbefore j (hpos ▸ hgt)
        rw [List.getElem_finRange] at hj
        have hjzero : s j = 0 := by simpa using hj
        rw [hjzero] at hcbit
        cases BitVec.getLsbD_zero.symm.trans hcbit

end Operations
end BitWords
end FluaLibs
