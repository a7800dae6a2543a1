import SvServer.Proofs.PathText
import SvServer.Uri.Write

/-!
# The URIs of paths

A segment of a path is written byte by byte, and what is written is read back byte by byte. No
separator is written inside of a segment. So the URI of a path tells its segments, and no two paths
share a URI.
-/

namespace SvServer.Uri

open SvServer.Text

/-! ## Bytes -/

theorem bytes_loop (bytes : ByteArray) (i : Nat) (read : List UInt8) :
    ByteArray.toList.loop bytes i read = read.reverse ++ bytes.data.toList.drop i := by
  fun_induction ByteArray.toList.loop bytes i read with
  | case1 i read inside ih =>
      have size : i < bytes.data.toList.length := by simpa using inside
      have byte : bytes.get! i = bytes.data.toList[i] := by
        rw [ByteArray.get!, getElem!_pos bytes.data i size]
        rfl
      rw [ih, List.reverse_cons, List.append_assoc, List.drop_eq_getElem_cons size, byte]
      rfl
  | case2 i read outside =>
      have size : bytes.data.toList.length ≤ i := by simpa using outside
      rw [List.drop_eq_nil_of_le size, List.append_nil]

/-- Texts with the same bytes are the same. -/
theorem eq_of_bytes {a b : String} (same : a.toUTF8.toList = b.toUTF8.toList) : a = b := by
  rw [ByteArray.toList, ByteArray.toList, bytes_loop, bytes_loop] at same
  apply String.toByteArray_inj.1
  apply ByteArray.ext
  exact Array.toList_inj.1 same

/-- What is shown of all bytes by trying them. -/
theorem forall_byte (holds : UInt8 → Prop) (all : ∀ n < 256, holds (UInt8.ofNat n))
    (byte : UInt8) : holds byte := by
  have tried := all byte.toNat byte.toNat_lt
  rwa [UInt8.ofNat_toNat] at tried

theorem plain_byte (byte : UInt8) (plain : isPlain byte = true) :
    Char.ofNat byte.toNat ≠ '%' ∧ (Char.ofNat byte.toNat).toString.toUTF8.toList = [byte] :=
  forall_byte (fun byte => isPlain byte = true → Char.ofNat byte.toNat ≠ '%' ∧
    (Char.ofNat byte.toNat).toString.toUTF8.toList = [byte]) (by decide +kernel) byte plain

theorem decodeBytes_of_ne {c : Char} (ordinary : c ≠ '%') (rest : List Char) :
    decodeBytes (c :: rest) = c.toString.toUTF8.toList ++ decodeBytes rest := by
  rw [decodeBytes]
  exact fun _ _ _ same _ => ordinary same

/-- **A byte is read back.** -/
theorem decodeBytes_encodeByte (byte : UInt8) (rest : List Char) :
    decodeBytes (encodeByte byte ++ rest) = byte :: decodeBytes rest := by
  rw [encodeByte]
  split
  · rename_i plain
    obtain ⟨ordinary, bytes⟩ := plain_byte byte plain
    rw [List.singleton_append, decodeBytes_of_ne ordinary, bytes, List.singleton_append]
  · have size := byte.toNat_lt
    have high : byte.toNat / 16 < 16 := by omega
    have low : byte.toNat % 16 < 16 := by omega
    have whole : byte.toNat / 16 * 16 + byte.toNat % 16 = byte.toNat := by omega
    rw [List.cons_append, List.cons_append, List.cons_append, List.nil_append, decodeBytes]
    simp only [hexValue?_hexDigit high, hexValue?_hexDigit low, whole, UInt8.ofNat_toNat]

theorem decodeBytes_flatMap (bytes : List UInt8) :
    decodeBytes (bytes.flatMap encodeByte) = bytes := by
  induction bytes with
  | nil => rw [List.flatMap_nil, decodeBytes]
  | cons byte rest ih => rw [List.flatMap_cons, decodeBytes_encodeByte, ih]

/-! ## Segments -/

/-- **Segments that are written alike are the same.** -/
theorem encodeSegment_injective {a b : String} (same : encodeSegment a = encodeSegment b) :
    a = b := by
  have written := congrArg (fun text => decodeBytes text.toList) same
  simp only [encodeSegment, String.toList_ofList, decodeBytes_flatMap] at written
  exact eq_of_bytes written

theorem not_mem_encodeByte (byte : UInt8) : '/' ∉ encodeByte byte :=
  forall_byte (fun byte => '/' ∉ encodeByte byte) (by decide +kernel) byte

/-- A written segment holds no separator. -/
theorem not_mem_encodeSegment (segment : String) : '/' ∉ (encodeSegment segment).toList := by
  rw [encodeSegment, String.toList_ofList, List.mem_flatMap]
  rintro ⟨byte, -, member⟩
  exact not_mem_encodeByte byte member

/-! ## Paths -/

/-- The text of segments, each behind a separator. -/
def written (segments : List String) : List Char :=
  segments.flatMap fun segment => '/' :: (encodeSegment segment).toList

/-- The segments are what is found behind the separators. -/
theorem splitChars_written (segments : List String) :
    Path.splitChars (written segments) =
      [] :: segments.map fun segment => (encodeSegment segment).toList := by
  induction segments with
  | nil => rfl
  | cons first rest ih =>
      have whole := not_mem_encodeSegment first
      have begun : written (first :: rest) =
          '/' :: ((encodeSegment first).toList ++ written rest) := rfl
      have split : Path.splitChars ((encodeSegment first).toList ++ written rest) =
          (first :: rest).map fun segment => (encodeSegment segment).toList := by
        cases rest with
        | nil =>
            rw [written, List.flatMap_nil, List.append_nil, Path.splitChars_of_not_mem whole]
            rfl
        | cons second more =>
            have next : written (second :: more) =
              '/' :: ((encodeSegment second).toList ++ written more) := rfl
            rw [next, Path.splitChars, if_pos rfl] at ih
            rw [next, Path.splitChars_append whole, (List.cons.inj ih).2]
            rfl
      rw [begun, Path.splitChars, if_pos rfl, split]

/-- Segments that are written alike are the same. -/
theorem written_injective {a b : List String} (same : written a = written b) : a = b := by
  have split := congrArg Path.splitChars same
  rw [splitChars_written, splitChars_written] at split
  refine (List.map_inj_right fun _ _ same => ?_).1 (List.cons.inj split).2
  exact encodeSegment_injective (String.toList_inj.1 same)

/-- The segments that a path shows in its URI, behind the root directory. -/
def segmentsOf (rest : List Component) : List String :=
  if rest = [] then [""] else rest.map Component.text

theorem filterMap_segmentsOf {rest : List Component} (inner : ∀ c ∈ rest, c.IsInner) :
    (segmentsOf rest).filterMap Component.ofSegment? = rest := by
  rw [segmentsOf]
  split
  · rename_i none
    rw [none]
    rfl
  · exact Component.filterMap_ofSegment?_text inner

/-- What the URI of a path says. -/
theorem of_ofPath? {path : Path} {uri : String} (written? : ofPath? path = some uri) :
    ∃ rest, path.components = .root :: rest ∧
      uri.toList = "file://".toList ++ written (segmentsOf rest) := by
  rw [ofPath?] at written?
  split at written?
  · rename_i root
    refine ⟨[], root, ?_⟩
    rw [← Option.some.inj written?]
    decide +kernel
  · rename_i rest nonempty root
    refine ⟨rest, root, ?_⟩
    have behind : ∀ segment : String, ("/" ++ encodeSegment segment).toList =
        '/' :: (encodeSegment segment).toList := fun segment => String.toList_append
    rw [← Option.some.inj written?, String.toList_append, String.toList_join, written, segmentsOf,
      if_neg nonempty, List.flatMap_map, List.flatMap_map]
    simp only [behind]
  · cases written?

/-- **No two paths share a URI.** -/
theorem ofPath?_injective {a b : Path} {uri : String} (ofA : ofPath? a = some uri)
    (ofB : ofPath? b = some uri) : (a == b) = true := by
  obtain ⟨restA, rootA, textA⟩ := of_ofPath? ofA
  obtain ⟨restB, rootB, textB⟩ := of_ofPath? ofB
  have same := written_injective (List.append_cancel_left (textA.symm.trans textB))
  have innerA : ∀ c ∈ restA, c.IsInner := by
    have inner := a.isInner_of_mem_tail
    rwa [rootA] at inner
  have innerB : ∀ c ∈ restB, c.IsInner := by
    have inner := b.isInner_of_mem_tail
    rwa [rootB] at inner
  rw [Path.beq_iff, rootA, rootB, ← filterMap_segmentsOf innerA, ← filterMap_segmentsOf innerB,
    same]

end SvServer.Uri
