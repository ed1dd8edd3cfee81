import FluaLibs.RoutingHeaderReads

/-! # Routing headers from initialised memory

`inet6_rth_ext` does not call `inet6_rth_init`.  Where the memory is as that function would
leave it, the segments are added one after the other (`addSegments_filled`), and what is
returned is decoded and reversed as expected (`inverts_of_initialised`).
-/
namespace FluaLibs
namespace RoutingHeaders
open LuaArguments
variable {R : Runtime}

/-- A header for some number of segments, of which the first have been added. -/
structure Filled (m : ByteMemory) (n : Nat) (as : List Bytes) : Prop where
  type : typeAt m 0 = IPV6_RTHDR_TYPE_0
  len : lenAt m 0 = 2 * n
  segleft : segleftAt m 0 = as.length
  addresses : addresses m 0 as.length 0 = as

/-- What `inet6_rth_init` leaves in the memory. -/
def Initialised (m : ByteMemory) (n : Nat) : Prop := Filled m n []

/-- A header with all of its segments: the number of the next header, the length, the type, the
segments left, four reserved bytes and the addresses. -/
def header (next : UInt8) (reserved : Bytes) (as : List Bytes) : Bytes :=
  [next, UInt8.ofNat (2 * as.length), 0, UInt8.ofNat as.length] ++ reserved ++ as.flatten

/-! ## Addresses in memory -/

section Addresses
variable {m m' : ByteMemory} {bp n i : Nat}

theorem addresses_length (m : ByteMemory) (bp n i : Nat) : (addresses m bp n i).length = n := by
  induction n generalizing i with
  | zero => rfl
  | succ n ih => rw [addresses, List.length_cons, ih]

theorem addresses_sized : ∀ a ∈ addresses m bp n i, a.length = addrSize := by
  induction n generalizing i with
  | zero => exact List.forall_mem_nil _
  | succ n ih => exact List.forall_mem_cons.mpr ⟨ByteMemory.load_length .., ih⟩

/-- The last address. -/
theorem addresses_concat (m : ByteMemory) (bp n i : Nat) :
    addresses m bp (n + 1) i =
      addresses m bp n i ++ [m.load (bp + (headerSize + addrSize * (i + n))) addrSize] := by
  induction n generalizing i with
  | zero => rfl
  | succ n ih =>
    have hlast : i + 1 + n = i + (n + 1) := by omega
    rw [addresses, ih, hlast]
    rfl

theorem addresses_congr
    (h : ∀ a, bp + (headerSize + addrSize * i) ≤ a →
      a < bp + (headerSize + addrSize * (i + n)) → m a = m' a) :
    addresses m bp n i = addresses m' bp n i := by
  induction n generalizing i with
  | zero => rfl
  | succ n ih =>
    simp only [headerSize, addrSize] at h
    have hfirst : m.load (bp + (headerSize + addrSize * i)) addrSize =
        m'.load (bp + (headerSize + addrSize * i)) addrSize := by
      apply ByteMemory.load_congr
      simp only [headerSize, addrSize]
      intro a hle hlt
      exact h a hle (by omega)
    have hrest : addresses m bp n (i + 1) = addresses m' bp n (i + 1) := by
      apply ih
      simp only [headerSize, addrSize]
      intro a hle hlt
      exact h a (by omega) (by omega)
    rw [addresses, addresses, hfirst, hrest]

/-- The addresses are what is behind the first bytes. -/
theorem addresses_flatten (m : ByteMemory) (bp n i : Nat) :
    (addresses m bp n i).flatten = m.load (bp + (headerSize + addrSize * i)) (addrSize * n) := by
  induction n generalizing i with
  | zero => rfl
  | succ n ih =>
    have hsize : addrSize * (n + 1) = addrSize + addrSize * n := by
      rw [Nat.mul_add, Nat.mul_one, Nat.add_comm]
    have hnext : bp + (headerSize + addrSize * (i + 1)) =
        bp + (headerSize + addrSize * i) + addrSize := by
      rw [Nat.mul_add, Nat.mul_one]
      omega
    rw [addresses, List.flatten_cons, ih, hnext, hsize, ByteMemory.load_add]

theorem flatten_length {as : List Bytes} (h : ∀ a ∈ as, a.length = addrSize) :
    as.flatten.length = addrSize * as.length := by
  induction as with
  | nil => rfl
  | cons a as ih =>
    obtain ⟨ha, has⟩ := List.forall_mem_cons.mp h
    rw [List.flatten_cons, List.length_append, ha, ih has, List.length_cons, Nat.mul_add,
      Nat.mul_one, Nat.add_comm]

/-- Addresses are determined by their bytes. -/
theorem eq_of_flatten_eq {as bs : List Bytes} (has : ∀ a ∈ as, a.length = addrSize)
    (hbs : ∀ b ∈ bs, b.length = addrSize) (hlength : as.length = bs.length)
    (h : as.flatten = bs.flatten) : as = bs := by
  refine List.eq_iff_flatten_eq.mpr ⟨h, ?_⟩
  rw [List.map_eq_replicate_iff.mpr has, List.map_eq_replicate_iff.mpr hbs, hlength]

end Addresses

/-! ## The loop of the encoder -/

/-- What `inet6_rth_add` writes. -/
def added (m : ByteMemory) (a : Bytes) : List ByteStore :=
  [⟨0 + (headerSize + addrSize * segleftAt m 0), a⟩,
    ⟨0 + segleftOffset, [UInt8.ofNat (segleftAt m 0 + 1)]⟩]

section Loop
variable {m : ByteMemory} {n : Nat} {as : List Bytes} {a : Bytes}

/-- Only the number of segments left changes in front of the new address. -/
theorem added_frame {i : Nat} (hne : i ≠ segleftOffset)
    (hi : i < headerSize + addrSize * segleftAt m 0) : ByteStore.run m (added m a) i = m i := by
  apply ByteStore.run_frame
  rw [added, List.forall_mem_cons, List.forall_mem_singleton]
  refine ⟨?_, ?_⟩
  · rintro ⟨hle, -⟩
    simp only [Nat.zero_add] at hle
    omega
  · rintro ⟨hle, hlt⟩
    simp only [Nat.zero_add, List.length_singleton] at hle hlt
    omega

theorem added_header {i : Nat} (hne : i ≠ segleftOffset) (hi : i < headerSize) :
    ByteStore.run m (added m a) i = m i :=
  added_frame hne (Nat.lt_of_lt_of_le hi (Nat.le_add_right ..))

theorem added_segleft (hlt : segleftAt m 0 < 255) :
    segleftAt (ByteStore.run m (added m a)) 0 = segleftAt m 0 + 1 := by
  have hbyte : ByteStore.run m ([⟨0 + (headerSize + addrSize * segleftAt m 0), a⟩] ++
      ⟨0 + segleftOffset, [UInt8.ofNat (segleftAt m 0 + 1)]⟩ :: []) (0 + segleftOffset) =
      UInt8.ofNat (segleftAt m 0 + 1) := ByteStore.byte_stored (List.forall_mem_nil _)
  rw [List.singleton_append] at hbyte
  rw [segleftAt, added, hbyte]
  exact UInt8.toNat_ofNat_of_lt' (Nat.succ_lt_succ hlt)

theorem added_address (ha : a.length = addrSize) :
    (ByteStore.run m (added m a)).load (0 + (headerSize + addrSize * segleftAt m 0)) addrSize =
      a := by
  have hstored : (ByteStore.run m (added m a)).load
      (0 + (headerSize + addrSize * segleftAt m 0)) a.length = a := by
    refine ByteStore.load_stored_first (List.forall_mem_singleton.mpr ?_)
    rintro i ⟨hle, -⟩ ⟨-, hlt⟩
    simp only [headerSize, segleftOffset, List.length_singleton] at hle hlt
    omega
  rwa [ha] at hstored

/-- **A segment is added.** -/
theorem added_filled (h : Filled m n as) (hroom : as.length < n) (hn : n ≤ 127)
    (ha : a.length = addrSize) : Filled (ByteStore.run m (added m a)) n (as ++ [a]) := by
  have hsegleft : segleftAt m 0 = as.length := h.segleft
  refine ⟨?_, ?_, ?_, ?_⟩
  · rw [typeAt, added_header (by decide) (by decide)]
    exact h.type
  · rw [lenAt, added_header (by decide) (by decide)]
    exact h.len
  · rw [added_segleft (by omega), hsegleft, List.length_append, List.length_singleton]
  · have hbefore : addresses (ByteStore.run m (added m a)) 0 as.length 0 = as := by
      refine Eq.trans (addresses_congr fun i hle hlt => ?_) h.addresses
      simp only [headerSize, Nat.zero_add] at hle hlt
      exact added_frame (by rw [segleftOffset]; omega) (by rw [hsegleft]; exact hlt)
    have hlast := added_address (m := m) ha
    rw [hsegleft, ← Nat.zero_add as.length] at hlast
    rw [List.length_append, List.length_singleton, addresses_concat, hbefore, hlast]

/-- **All segments are added**, and the other members of the header are left as they are. -/
theorem addSegments_filled {env : Env} (hlib : env.lib.Documented) {r : Nat} {done : List Bytes}
    (h : Filled m n done) (hn : n ≤ 127) (hlength : done.length + as.length = n)
    (hsized : ∀ a ∈ as, a.length = addrSize)
    (hgeti : ∀ i (hi : i < as.length), env.geti r (done.length + 1 + i) = .ok (.string as[i])) :
    ∃ m', addSegments env r as.length (done.length + 1) m = .ok m' ∧ Filled m' n (done ++ as) ∧
      ∀ i < headerSize, i ≠ segleftOffset → m' i = m i := by
  induction as generalizing m done with
  | nil =>
    rw [List.append_nil]
    exact ⟨m, rfl, h, fun _ _ _ => rfl⟩
  | cons a as ih =>
    obtain ⟨ha, has⟩ := List.forall_mem_cons.mp hsized
    rw [List.length_cons] at hlength
    have hroom : segleftAt m 0 ≠ lenAt m 0 / 2 := by
      rw [h.segleft, h.len]
      omega
    have hadd := hlib.add m 0 a
    rw [if_pos ⟨h.type, hroom⟩] at hadd
    have hfirst := hgeti 0 (Nat.succ_pos _)
    have hstep : addSegments env r (as.length + 1) (done.length + 1) m =
        addSegments env r as.length (done.length + 1 + 1) (ByteStore.run m (added m a)) := by
      rw [Nat.add_zero] at hfirst
      simp only [addSegments, hfirst, bind, Except.bind, List.getElem_cons_zero, ha, if_true, hadd,
        added]
    have hdone : (done ++ [a]).length = done.length + 1 := by
      rw [List.length_append, List.length_singleton]
    obtain ⟨m', hrun, hfilled, hsame⟩ :=
      ih (added_filled h (by omega) hn ha) (by rw [hdone]; omega) has (fun i hi => by
        have hshift : (done ++ [a]).length + 1 + i = done.length + 1 + (i + 1) := by omega
        rw [hshift]
        exact hgeti (i + 1) (Nat.succ_lt_succ hi))
    rw [hdone] at hrun
    rw [List.append_assoc] at hfilled
    refine ⟨m', hstep.trans hrun, hfilled, fun i hi hne => ?_⟩
    exact (hsame i hi hne).trans (added_header hne hi)

end Loop

/-! ## Headers as strings -/

section Strings
variable {m : ByteMemory} {next : UInt8} {reserved : Bytes} {as : List Bytes}

theorem header_length (hreserved : reserved.length = 4)
    (hsized : ∀ a ∈ as, a.length = addrSize) :
    (header next reserved as).length = headerSize + addrSize * as.length := by
  rw [header, List.length_append, List.length_append, hreserved, flatten_length hsized]
  rfl

/-- The string with a header that has all of its segments. -/
theorem load_header (h : Filled m as.length as) :
    m.load 0 (headerSize + addrSize * as.length) = header (m 0) (m.load 4 4) as := by
  have hlen : m 1 = UInt8.ofNat (2 * as.length) := by
    rw [← h.len]
    exact (UInt8.ofNat_toNat (x := m 1)).symm
  have htype : m 2 = 0 := UInt8.toNat_inj.mp h.type
  have hsegleft : m 3 = UInt8.ofNat as.length := by
    rw [← h.segleft]
    exact (UInt8.ofNat_toNat (x := m 3)).symm
  have hfirst : m.load 0 4 = [m 0, m 1, m 2, m 3] := rfl
  have hflatten := addresses_flatten m 0 as.length 0
  rw [h.addresses] at hflatten
  have hsplit : m.load 0 headerSize = m.load 0 4 ++ m.load 4 4 := ByteMemory.load_add m 0 4 4
  rw [ByteMemory.load_add, hsplit, hfirst, hlen, htype, hsegleft, header, hflatten]
  rfl

theorem load_stringMemory (env : Env) (s : Bytes) : (stringMemory env s).load 0 s.length = s := by
  apply List.ext_getElem
  · exact ByteMemory.load_length ..
  · intro i hi hi'
    simp only [ByteMemory.load, List.getElem_map, List.getElem_range, Nat.zero_add]
    rw [stringMemory_of_lt hi', List.getD_eq_getElem _ _ hi']

/-- What a header is in memory. -/
theorem stringMemory_header (env : Env) (next : UInt8) (hreserved : reserved.length = 4)
    (hsized : ∀ a ∈ as, a.length = addrSize) (hn : as.length ≤ 127) :
    Filled (stringMemory env (header next reserved as)) as.length as ∧
      (stringMemory env (header next reserved as)).load 0 3 =
        [next, UInt8.ofNat (2 * as.length), 0] ∧
      (stringMemory env (header next reserved as)).load 4 4 = reserved := by
  have hload := load_stringMemory env (header next reserved as)
  rw [header_length hreserved hsized] at hload
  generalize stringMemory env (header next reserved as) = m at hload ⊢
  have hsplit : m.load 0 (headerSize + addrSize * as.length) =
      m.load 0 4 ++ m.load 4 4 ++ m.load headerSize (addrSize * as.length) := by
    rw [ByteMemory.load_add, ← ByteMemory.load_add m 0 4 4, Nat.zero_add]
    rfl
  rw [hsplit, header] at hload
  obtain ⟨hheader, hflatten⟩ := List.append_inj hload (by
    simp only [List.length_append, ByteMemory.load_length, hreserved, List.length_cons,
      List.length_nil])
  obtain ⟨hfirst, hfour⟩ := List.append_inj hheader (ByteMemory.load_length ..)
  have hbytes : [m 0, m 1, m 2, m 3] =
      [next, UInt8.ofNat (2 * as.length), 0, UInt8.ofNat as.length] := hfirst
  simp only [List.cons.injEq, and_true] at hbytes
  obtain ⟨hnext, hlen, htype, hsegleft⟩ := hbytes
  refine ⟨⟨?_, ?_, ?_, ?_⟩, ?_, hfour⟩
  · exact congrArg UInt8.toNat htype
  · exact (congrArg UInt8.toNat hlen).trans (UInt8.toNat_ofNat_of_lt' (by show _ < 256; omega))
  · exact (congrArg UInt8.toNat hsegleft).trans
      (UInt8.toNat_ofNat_of_lt' (by show _ < 256; omega))
  · refine eq_of_flatten_eq addresses_sized hsized (addresses_length ..) ?_
    rw [addresses_flatten]
    exact hflatten
  · have hthree : m.load 0 3 = [m 0, m 1, m 2] := rfl
    rw [hthree, hnext, hlen, htype]

end Strings

/-! ## Calls -/

section Calls
variable {env : Env} {L : LuaState R} {type : Int} {as : List Bytes} {next : UInt8}
  {reserved : Bytes} {fresh : ByteMemory}

theorem admissible_length (hlib : env.lib.Documented) (h : Admissible env type as) :
    as.length ≤ 127 := by
  rw [Admissible, hlib.space] at h
  split at h
  · next hrange =>
    have hle := hrange.2.2
    omega
  · exact absurd rfl h

theorem supported_of_filled {m : ByteMemory} {n : Nat} (h : Filled m n as) : Supported m 0 :=
  ⟨h.type, by rw [h.len, Nat.mul_mod_right]⟩

theorem lenAt_of_filled {m : ByteMemory} {n : Nat} (h : Filled m n as) : lenAt m 0 / 2 = n := by
  rw [h.len, Nat.mul_div_cancel_left n Nat.two_pos]

/-- The encoder gives a header with the bytes that are in the memory. -/
theorem rth_ext_initialised (hlib : env.lib.Documented) (hgives : Gives env L type as)
    (hadmissible : Admissible env type as) (h : Initialised fresh as.length) :
    l_inet6_rth_ext (env.withFresh fresh) L =
      .string (header (fresh 0) (fresh.load 4 4) as) := by
  obtain ⟨r, helements, hext⟩ := l_inet6_rth_ext_gives hlib hgives hadmissible fresh
  have hlib' : (env.withFresh fresh).lib.Documented := hlib
  obtain ⟨m, hrun, hfilled, hsame⟩ :=
    addSegments_filled hlib' (r := r) h (admissible_length hlib hadmissible) (Nat.zero_add _)
      hgives.sized (fun i hi => by
        have hindex : ([] : List Bytes).length + 1 + i = i + 1 := Nat.add_comm 1 i
        rw [hindex]
        exact helements i hi)
  have hnext : m 0 = fresh 0 := hsame 0 (by decide) (by decide)
  have hreserved : m.load 4 4 = fresh.load 4 4 := by
    apply ByteMemory.load_congr
    intro i hle hlt
    exact hsame i hlt (by rw [segleftOffset]; omega)
  rw [List.length_nil, Nat.zero_add] at hrun
  rw [List.nil_append] at hfilled
  rw [hext, hrun]
  dsimp only
  rw [load_header hfilled, hnext, hreserved]

/-- The decoder gives the list that is in a header. -/
theorem ext_rth_header (hlib : env.lib.Documented) (hreserved : reserved.length = 4)
    (hsized : ∀ a ∈ as, a.length = addrSize) (hn : as.length ≤ 127)
    (h : L.index 1 = some (.string (header next reserved as))) :
    (l_inet6_ext_rth env L).value = .list as := by
  obtain ⟨hfilled, -, -⟩ := stringMemory_header env next hreserved hsized hn
  have hlen := lenAt_of_filled hfilled
  have hvalid : Valid (stringMemory env (header next reserved as)) 0 := by
    refine ⟨supported_of_filled hfilled, ?_⟩
    rw [hfilled.segleft, hlen]
  rw [ext_rth_valid hlib h hvalid, hlen, hfilled.addresses]

/-- The reverse of a header. -/
theorem rth_reverse_header (hlib : env.lib.Documented) (hreserved : reserved.length = 4)
    (hsized : ∀ a ∈ as, a.length = addrSize) (hn : as.length ≤ 127)
    (hmalloc : env.malloc (header next reserved as).length = true)
    (h : L.index 1 = some (.string (header next reserved as))) :
    (l_inet6_rth_reverse env L).value = .string (header next reserved as.reverse) := by
  obtain ⟨hfilled, hthree, hfour⟩ := stringMemory_header env next hreserved hsized hn
  have hreverse := hlib.reverse (stringMemory env (header next reserved as)) 0
  have hreversed : reversed (stringMemory env (header next reserved as)) 0 =
      header next reserved as.reverse := by
    rw [reversed, lenAt_of_filled hfilled, hthree, Nat.zero_add, hfour, hfilled.addresses, header,
      List.length_reverse]
    rfl
  have hsame : (header next reserved as.reverse).length = (header next reserved as).length := by
    have hsized' : ∀ a ∈ as.reverse, a.length = addrSize := fun a ha =>
      hsized a (List.mem_reverse.mp ha)
    rw [header_length hreserved hsized', header_length hreserved hsized, List.length_reverse]
  rw [if_pos (supported_of_filled hfilled), hreversed] at hreverse
  rw [l_inet6_rth_reverse, checklstring_string h]
  simp only [hmalloc, if_true, hreverse]
  rw [← hsame, List.take_left]

theorem header_inverts (hlib : env.lib.Documented) (hreserved : reserved.length = 4)
    (hsized : ∀ a ∈ as, a.length = addrSize) (hn : as.length ≤ 127) :
    Inverts (R := R) env as (header next reserved as) (header next reserved as.reverse) := by
  have hsized' : ∀ a ∈ as.reverse, a.length = addrSize := fun a ha =>
    hsized a (List.mem_reverse.mp ha)
  have hn' : as.reverse.length ≤ 127 := by
    rw [List.length_reverse]
    exact hn
  refine ⟨fun fresh L' h => ?_, fun fresh L' h => ?_, fun fresh L' h => ?_⟩
  · have hlib' : (env.withFresh fresh).lib.Documented := hlib
    exact ext_rth_header hlib' hreserved hsized hn h
  · have hlib' : (env.withFresh fresh).lib.Documented := hlib
    exact rth_reverse_header hlib' hreserved hsized hn rfl h
  · have hlib' : (env.withFresh fresh).lib.Documented := hlib
    have hback := rth_reverse_header hlib' hreserved hsized' hn' rfl h
    rw [List.reverse_reverse] at hback
    exact hback

/-- **From memory that is initialised every list round-trips.** -/
theorem inverts_of_initialised (hlib : env.lib.Documented) (hgives : Gives env L type as)
    (hadmissible : Admissible env type as) (h : Initialised fresh as.length) :
    ∃ s r, l_inet6_rth_ext (env.withFresh fresh) L = .string s ∧
      Inverts (R := R) env as s r :=
  ⟨_, _, rth_ext_initialised hlib hgives hadmissible h,
    header_inverts hlib (ByteMemory.load_length ..) hgives.sized
      (admissible_length hlib hadmissible)⟩

end Calls

end RoutingHeaders
end FluaLibs
