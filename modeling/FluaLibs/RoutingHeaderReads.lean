import FluaLibs.RoutingHeaders

/-! # What is read of a routing header

`inet6_ext_rth` and `inet6_rth_reverse` get a string that may be anything.  They do not
compare its length with the one that the header has in it, so a string is safe if the
library refuses it after the first bytes, or if it is as long as it says
(`ext_rth_safe_iff`, `rth_reverse_safe_iff`).
-/
namespace FluaLibs
namespace RoutingHeaders
open LuaArguments
variable {R : Runtime}

/-! ## Strings -/

section Strings
variable (s : Bytes)

def typeOf : Nat := (s.getD typeOffset 0).toNat

def lenOf : Nat := (s.getD lenOffset 0).toNat

def segleftOf : Nat := (s.getD segleftOffset 0).toNat

/-- The first bytes say that the header is supported. -/
def SaysSupported : Prop := typeOf s = IPV6_RTHDR_TYPE_0 ∧ lenOf s % 2 = 0

instance : Decidable (SaysSupported s) := inferInstanceAs (Decidable (_ ∧ _))

/-- The string has all of the header that it starts with. -/
def Complete : Prop := 8 * (lenOf s + 1) ≤ s.length

instance : Decidable (Complete s) := inferInstanceAs (Decidable (_ ≤ _))

/-- The string is a header. -/
structure WellFormed : Prop where
  supported : SaysSupported s
  complete : Complete s
  segleft : segleftOf s ≤ lenOf s / 2

end Strings

def Outcome.Fails : Outcome → Prop
  | raised _ | failed _ => True
  | string _ | list _ => False

/-- What is expected of a call with a string, and with a buffer of the same size: it stays
within both, and fails if the string is not a header. -/
structure Safe (c : Access Outcome) (s : Bytes) : Prop where
  reads : ∀ e ∈ c.reads, e.Within 0 s.length
  writes : ∀ e ∈ c.writes, e.Within 0 s.length
  malformed : ¬ WellFormed s → c.value.Fails

section Memory
variable {env : Env} {s : Bytes} {m : ByteMemory} {size : Nat}

theorem stringMemory_of_lt {i : Nat} (h : i < s.length) : stringMemory env s i = s.getD i 0 := by
  rw [stringMemory, if_pos h]

/-- The first bytes, in a string that has them. -/
theorem supported_iff (h : 3 ≤ s.length) :
    Supported (stringMemory env s) 0 ↔ SaysSupported s := by
  have htype : stringMemory env s (0 + typeOffset) = s.getD typeOffset 0 :=
    stringMemory_of_lt (by rw [typeOffset]; omega)
  have hlen : stringMemory env s (0 + lenOffset) = s.getD lenOffset 0 :=
    stringMemory_of_lt (by rw [lenOffset]; omega)
  rw [Supported, SaysSupported, typeAt, lenAt, htype, hlen]
  rfl

theorem lenAt_string (h : 3 ≤ s.length) : lenAt (stringMemory env s) 0 = lenOf s := by
  have hlen : stringMemory env s (0 + lenOffset) = s.getD lenOffset 0 :=
    stringMemory_of_lt (by rw [lenOffset]; omega)
  rw [lenAt, hlen]
  rfl

theorem segleftAt_string (h : 4 ≤ s.length) :
    segleftAt (stringMemory env s) 0 = segleftOf s := by
  have hsegleft : stringMemory env s (0 + segleftOffset) = s.getD segleftOffset 0 :=
    stringMemory_of_lt (by rw [segleftOffset]; omega)
  rw [segleftAt, hsegleft]
  rfl

/-- The type is always looked at. -/
theorem supportReads_within : (∀ e ∈ supportReads m 0, e.Within 0 size) ↔ 3 ≤ size := by
  rw [supportReads, List.forall_mem_cons]
  simp only [Extent.Within, typeOffset]
  constructor
  · rintro ⟨htype, -⟩
    omega
  · intro h
    refine ⟨by omega, ?_⟩
    split
    · simp only [List.forall_mem_singleton, lenOffset]
      omega
    · exact List.forall_mem_nil _

theorem validReads_within :
    (∀ e ∈ validReads m 0, e.Within 0 size) ↔ 3 ≤ size ∧ (Supported m 0 → 4 ≤ size) := by
  rw [validReads, List.forall_mem_append, supportReads_within]
  split
  · next h =>
    simp only [List.forall_mem_singleton, Extent.Within, segleftOffset, h, true_imp_iff]
    omega
  · next h => simp only [h, false_imp_iff, List.not_mem_nil, implies_true]

end Memory

/-! ## The decoder -/

/-- What the loop of `l_inet6_ext_rth` reads. -/
def segmentReads (m : ByteMemory) : Nat → Nat → List Extent
  | 0, _ => []
  | n + 1, i =>
    validReads m 0 ++ ⟨headerSize + addrSize * i, addrSize⟩ :: segmentReads m n (i + 1)

section Decoder
variable {lib : Rth} {m : ByteMemory} {size : Nat}

theorem pushSegments_valid (hlib : lib.Documented) (hvalid : Valid m 0) {n i : Nat}
    (h : i + n = lenAt m 0 / 2) :
    pushSegments lib m n i = ⟨segmentReads m n i, [], some (addresses m 0 n i)⟩ := by
  induction n generalizing i with
  | zero => rfl
  | succ n ih =>
    have hindex : Valid m 0 ∧ (0 : Int) ≤ i ∧ (i : Int) < (lenAt m 0 / 2 : Nat) :=
      ⟨hvalid, by omega, by omega⟩
    have hgetaddr := hlib.getaddr m 0 i
    rw [if_pos hindex, Int.toNat_natCast] at hgetaddr
    have hrest := ih (i := i + 1) (by omega)
    simp only [pushSegments, hgetaddr, hrest, segmentReads, addresses, Nat.zero_add,
      Option.map_some, List.nil_append]

theorem segmentReads_within {n i : Nat} (hreads : ∀ e ∈ validReads m 0, e.Within 0 size) :
    (∀ e ∈ segmentReads m n i, e.Within 0 size) ↔
      n = 0 ∨ headerSize + addrSize * (i + n) ≤ size := by
  induction n generalizing i with
  | zero => exact iff_of_true (List.forall_mem_nil _) (Or.inl rfl)
  | succ n ih =>
    have hfirst : (⟨headerSize + addrSize * i, addrSize⟩ : Extent).Within 0 size ↔
        headerSize + addrSize * (i + 1) ≤ size := by
      simp only [Extent.Within, headerSize, addrSize]
      omega
    rw [segmentReads, List.forall_mem_append, List.forall_mem_cons, hfirst, ih]
    simp only [headerSize, addrSize]
    constructor
    · rintro ⟨-, hat, hrest⟩
      omega
    · intro h
      exact ⟨hreads, by omega, by omega⟩

end Decoder

section Calls
variable {env : Env} {L : LuaState R} {s : Bytes}

theorem checklstring_string (h : L.index 1 = some (.string s)) :
    checklstring env.host 1 (L.index 1) = .ok s := by
  rw [h]
  rfl

/-- The decoder refuses a header that is not valid. -/
theorem ext_rth_invalid (hlib : env.lib.Documented) (h : L.index 1 = some (.string s))
    (hvalid : ¬ Valid (stringMemory env s) 0) :
    l_inet6_ext_rth env L = ⟨validReads (stringMemory env s) 0, [], .failed EINVAL⟩ := by
  have hsegments := hlib.segments (stringMemory env s) 0
  rw [if_neg hvalid] at hsegments
  rw [l_inet6_ext_rth, checklstring_string h]
  simp only [hsegments, if_true]

/-- The decoder reads all addresses of a header that is valid. -/
theorem ext_rth_valid (hlib : env.lib.Documented) (h : L.index 1 = some (.string s))
    (hvalid : Valid (stringMemory env s) 0) :
    l_inet6_ext_rth env L =
      ⟨validReads (stringMemory env s) 0 ++
          segmentReads (stringMemory env s) (lenAt (stringMemory env s) 0 / 2) 0, [],
        .list (addresses (stringMemory env s) 0 (lenAt (stringMemory env s) 0 / 2) 0)⟩ := by
  have hsegments := hlib.segments (stringMemory env s) 0
  rw [if_pos hvalid] at hsegments
  have hne : ((lenAt (stringMemory env s) 0 / 2 : Nat) : Int) ≠ -1 := by omega
  have hpushed := pushSegments_valid hlib hvalid (Nat.zero_add _)
  rw [l_inet6_ext_rth, checklstring_string h]
  simp only [hsegments, hne, if_false, Int.toNat_natCast, hpushed, List.append_nil]

theorem ext_rth_safe_of_invalid (hlib : env.lib.Documented) (h : L.index 1 = some (.string s))
    (hvalid : ¬ Valid (stringMemory env s) 0) :
    Safe (l_inet6_ext_rth env L) s ↔
      3 ≤ s.length ∧ (Supported (stringMemory env s) 0 → 4 ≤ s.length) := by
  rw [ext_rth_invalid hlib h hvalid, ← validReads_within]
  exact ⟨fun hsafe => hsafe.reads, fun hreads =>
    ⟨hreads, List.forall_mem_nil _, fun _ => True.intro⟩⟩

theorem ext_rth_safe_of_valid (hlib : env.lib.Documented) (h : L.index 1 = some (.string s))
    (hvalid : Valid (stringMemory env s) 0) :
    Safe (l_inet6_ext_rth env L) s ↔ 4 ≤ s.length ∧ WellFormed s := by
  rw [ext_rth_valid hlib h hvalid]
  constructor
  · intro hsafe
    obtain ⟨hheader, -⟩ := List.forall_mem_append.mp hsafe.reads
    exact ⟨(validReads_within.mp hheader).2 hvalid.1, not_not.mp hsafe.malformed⟩
  · rintro ⟨hfour, hwell⟩
    have hheader : ∀ e ∈ validReads (stringMemory env s) 0, e.Within 0 s.length :=
      validReads_within.mpr ⟨by omega, fun _ => hfour⟩
    have hcomplete : 8 * (lenOf s + 1) ≤ s.length := hwell.complete
    have hlen : lenAt (stringMemory env s) 0 = lenOf s := lenAt_string (by omega)
    refine ⟨List.forall_mem_append.mpr ⟨hheader, (segmentReads_within hheader).mpr ?_⟩,
      List.forall_mem_nil _, fun hmalformed => absurd hwell hmalformed⟩
    right
    rw [hlen, headerSize, addrSize]
    omega

/-- **When the decoder is safe**: the first bytes are refused, or there are more segments left
than segments, or the string is as long as its header says. -/
theorem ext_rth_safe_iff (hlib : env.lib.Documented) (h : L.index 1 = some (.string s)) :
    Safe (l_inet6_ext_rth env L) s ↔
      3 ≤ s.length ∧ (¬ SaysSupported s ∨ 4 ≤ s.length ∧ lenOf s / 2 < segleftOf s ∨
        Complete s) := by
  by_cases hvalid : Valid (stringMemory env s) 0
  · rw [ext_rth_safe_of_valid hlib h hvalid]
    constructor
    · rintro ⟨hfour, hwell⟩
      exact ⟨by omega, Or.inr (Or.inr hwell.complete)⟩
    · rintro ⟨hthree, hcases⟩
      have hsupported := (supported_iff hthree).mp hvalid.1
      have hsegleft := hvalid.2
      rw [lenAt_string hthree] at hsegleft
      rcases hcases with hnot | ⟨hfour, hleft⟩ | hcomplete
      · exact absurd hsupported hnot
      · rw [segleftAt_string hfour] at hsegleft
        omega
      · have hfour : 4 ≤ s.length := by
          rw [Complete] at hcomplete
          omega
        rw [segleftAt_string hfour] at hsegleft
        exact ⟨hfour, hsupported, hcomplete, hsegleft⟩
  · rw [ext_rth_safe_of_invalid hlib h hvalid]
    constructor
    · rintro ⟨hthree, hfour⟩
      rw [supported_iff hthree] at hfour
      refine ⟨hthree, or_iff_not_imp_left.mpr fun hsays => Or.inl ?_⟩
      have hsupported := not_not.mp hsays
      refine ⟨hfour hsupported, Nat.lt_of_not_le fun hle => hvalid ⟨?_, ?_⟩⟩
      · exact (supported_iff hthree).mpr hsupported
      · rwa [segleftAt_string (hfour hsupported), lenAt_string hthree]
    · rintro ⟨hthree, hcases⟩
      refine ⟨hthree, fun hsupported => ?_⟩
      rcases hcases with hnot | ⟨hfour, -⟩ | hcomplete
      · exact absurd ((supported_iff hthree).mp hsupported) hnot
      · exact hfour
      · rw [Complete] at hcomplete
        omega

/-! ## The reverse -/

theorem rth_reverse_refused (h : L.index 1 = some (.string s))
    (hmalloc : env.malloc s.length = false) :
    Safe (l_inet6_rth_reverse env L) s := by
  rw [l_inet6_rth_reverse, checklstring_string h]
  simp only [hmalloc]
  exact ⟨List.forall_mem_nil _, List.forall_mem_nil _, fun _ => True.intro⟩

theorem rth_reverse_unsupported (hlib : env.lib.Documented) (h : L.index 1 = some (.string s))
    (hmalloc : env.malloc s.length = true) (hnot : ¬ Supported (stringMemory env s) 0) :
    Safe (l_inet6_rth_reverse env L) s ↔ 3 ≤ s.length := by
  have hreverse := hlib.reverse (stringMemory env s) 0
  rw [if_neg hnot] at hreverse
  rw [l_inet6_rth_reverse, checklstring_string h]
  simp only [hmalloc, if_true, hreverse]
  rw [← supportReads_within (m := stringMemory env s)]
  exact ⟨fun hsafe => hsafe.reads, fun hreads =>
    ⟨hreads, List.forall_mem_nil _, fun _ => True.intro⟩⟩

theorem rth_reverse_supported (hlib : env.lib.Documented) (h : L.index 1 = some (.string s))
    (hmalloc : env.malloc s.length = true) (hsupported : Supported (stringMemory env s) 0) :
    Safe (l_inet6_rth_reverse env L) s ↔ 3 ≤ s.length ∧ WellFormed s := by
  have hreverse := hlib.reverse (stringMemory env s) 0
  rw [if_pos hsupported] at hreverse
  rw [l_inet6_rth_reverse, checklstring_string h]
  simp only [hmalloc, if_true, hreverse]
  constructor
  · intro hsafe
    obtain ⟨hheader, -⟩ := List.forall_mem_append.mp hsafe.reads
    exact ⟨supportReads_within.mp hheader, not_not.mp hsafe.malformed⟩
  · rintro ⟨hthree, hwell⟩
    have hcopied : (⟨0, sizeAt (stringMemory env s) 0⟩ : Extent).Within 0 s.length := by
      have hcomplete : 8 * (lenOf s + 1) ≤ s.length := hwell.complete
      refine ⟨Nat.le_refl 0, ?_⟩
      show 0 + sizeAt (stringMemory env s) 0 ≤ 0 + s.length
      rw [sizeAt, lenAt_string hthree]
      omega
    exact ⟨List.forall_mem_append.mpr ⟨supportReads_within.mpr hthree,
        List.forall_mem_singleton.mpr hcopied⟩,
      List.forall_mem_singleton.mpr hcopied, fun hmalformed => absurd hwell hmalformed⟩

/-- **When the reverse is safe**: there is no memory, or the first bytes are refused, or the
string is a header. -/
theorem rth_reverse_safe_iff (hlib : env.lib.Documented) (h : L.index 1 = some (.string s)) :
    Safe (l_inet6_rth_reverse env L) s ↔
      env.malloc s.length = false ∨ 3 ≤ s.length ∧ (¬ SaysSupported s ∨ WellFormed s) := by
  cases hmalloc : env.malloc s.length with
  | false => exact iff_of_true (rth_reverse_refused h hmalloc) (Or.inl rfl)
  | true =>
    by_cases hsupported : Supported (stringMemory env s) 0
    · rw [rth_reverse_supported hlib h hmalloc hsupported]
      constructor
      · rintro ⟨hthree, hwell⟩
        exact Or.inr ⟨hthree, Or.inr hwell⟩
      · rintro (hfalse | ⟨hthree, hnot | hwell⟩)
        · cases hfalse
        · exact absurd ((supported_iff hthree).mp hsupported) hnot
        · exact ⟨hthree, hwell⟩
    · rw [rth_reverse_unsupported hlib h hmalloc hsupported]
      constructor
      · intro hthree
        exact Or.inr ⟨hthree, Or.inl fun hsays => hsupported ((supported_iff hthree).mpr hsays)⟩
      · rintro (hfalse | ⟨hthree, -⟩)
        · cases hfalse
        · exact hthree

/-- **When the two functions are safe.** -/
theorem rth_functions_safe_iff (hlib : env.lib.Documented) (h : L.index 1 = some (.string s)) :
    (Safe (l_inet6_ext_rth env L) s ↔
      3 ≤ s.length ∧ (¬ SaysSupported s ∨ 4 ≤ s.length ∧ lenOf s / 2 < segleftOf s ∨
        Complete s)) ∧
    (Safe (l_inet6_rth_reverse env L) s ↔
      env.malloc s.length = false ∨ 3 ≤ s.length ∧ (¬ SaysSupported s ∨ WellFormed s)) :=
  ⟨ext_rth_safe_iff hlib h, rth_reverse_safe_iff hlib h⟩

end Calls

/-! ## Two strings -/

def stringCall (s : Bytes) : LuaState noFunctions := ⟨[.string s], [], 0⟩

/-- A header with the address `::1`, which is still to be visited. -/
def fullHeader : Bytes := [59, 2, 0, 1, 0, 0, 0, 0] ++ List.replicate 15 0 ++ [1]

theorem fullHeader_wellFormed : WellFormed fullHeader := ⟨by decide, by decide, by decide⟩

theorem fullHeader_safe :
    Safe (l_inet6_ext_rth (listEnv []) (stringCall fullHeader)) fullHeader ∧
      Safe (l_inet6_rth_reverse (listEnv []) (stringCall fullHeader)) fullHeader := by
  have hlib : (listEnv []).lib.Documented := rth_documented
  have hfirst : (stringCall fullHeader).index 1 = some (.string fullHeader) := rfl
  obtain ⟨hext, hreverse⟩ := rth_functions_safe_iff hlib hfirst
  exact ⟨hext.mpr ⟨by decide, Or.inr (Or.inr (by decide))⟩,
    hreverse.mpr (Or.inr ⟨by decide, Or.inr fullHeader_wellFormed⟩)⟩

/-- A header that says that it has an address, and ends before it. -/
def cutHeader : Bytes := [59, 2, 0, 1, 0, 0, 0, 0]

theorem cutHeader_not_safe :
    ¬ Safe (l_inet6_ext_rth (listEnv []) (stringCall cutHeader)) cutHeader ∧
      ¬ Safe (l_inet6_rth_reverse (listEnv []) (stringCall cutHeader)) cutHeader := by
  have hcut : ¬ Complete cutHeader := by decide
  have hsays : SaysSupported cutHeader := by decide
  constructor
  · intro h
    have hsafe := (ext_rth_safe_iff rth_documented rfl).mp h
    rcases hsafe.2 with hnot | ⟨-, hleft⟩ | hcomplete
    · exact hnot hsays
    · exact absurd hleft (by decide)
    · exact hcut hcomplete
  · intro h
    rcases (rth_reverse_safe_iff rth_documented rfl).mp h with hmalloc | ⟨-, hnot | hwell⟩
    · cases hmalloc
    · exact hnot hsays
    · exact hcut hwell.complete

end RoutingHeaders
end FluaLibs
