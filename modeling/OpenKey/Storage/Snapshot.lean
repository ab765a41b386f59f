import OpenKey.Library.Cbor
import OpenKey.Storage.Backend

/-!
# The CBOR form of a snapshot

What `cbor_serialize` and `cbor_deserialize` do to a `BTreeMap<String, Vec<u8>>`: a map of
definite length in key order, keys as texts, values as arrays of small integers (the form serde
gives a `Vec<u8>`).
-/

namespace OpenKey

open Std Cbor

set_option autoImplicit false

/-- Serialise a snapshot. -/
def encodeSnapshot (m : KvMap) : Bytes := encodeMap encodeText (encodeArray encodeByte) m.toList

/-- Deserialise a snapshot; bytes after it are ignored. -/
def decodeSnapshot (bs : Bytes) : Option KvMap :=
  (decodeMap decodeText (decodeArray decodeByte) bs).map fun (entries, _) =>
    ExtTreeMap.ofList entries

theorem reads_snapshot {m : KvMap} (h : (encodeSnapshot m).length < 2 ^ 64) :
    Reads (decodeMap decodeText (decodeArray decodeByte)) m.toList (encodeSnapshot m) := by
  have hbody : (m.toList.flatMap fun e => encodeText e.1 ++ encodeArray encodeByte e.2).length ≤
      (encodeSnapshot m).length := by
    rw [encodeSnapshot, encodeMap, List.length_append]
    exact Nat.le_add_left _ _
  have hentry : ∀ e ∈ m.toList, (encodeText e.1).length + (encodeArray encodeByte e.2).length ≤
      (encodeSnapshot m).length := by
    intro e he
    have := length_mem_le_flatMap (fun e => encodeText e.1 ++ encodeArray encodeByte e.2) he
    rw [List.length_append] at this
    omega
  refine reads_map ?_ (fun e he => reads_text ?_)
    (fun e he => reads_array ?_ fun b _ => reads_byte b)
  · have := length_le_flatMap (fun e => encodeText e.1 ++ encodeArray encodeByte e.2) m.toList
      fun e => by
        have := length_encodeHead_pos 3 (utf8 e.1).length
        simp only [encodeText, List.length_append]
        omega
    omega
  · have := hentry e he
    simp only [encodeText, List.length_append] at this
    omega
  · have := hentry e he
    have hlen := length_le_flatMap encodeByte e.2 fun b =>
      length_encodeHead_pos 0 b.toNat
    simp only [encodeArray, List.length_append] at this
    omega

/-- The serialised form of snapshots. -/
def snapshotCodec : Codec KvMap where
  encode := encodeSnapshot
  decode := decodeSnapshot
  decode_encode m h := by
    have hread := reads_snapshot h []
    rw [List.append_nil] at hread
    rw [decodeSnapshot, hread, Option.map_some]
    exact congrArg some (ofList_toList m)

example : encodeSnapshot ((∅ : KvMap).insert "b" [200, 7] |>.insert "a" [1]) =
    [0xa2, 0x61, 0x61, 0x81, 0x01, 0x61, 0x62, 0x82, 0x18, 0xc8, 0x07] := by decide +kernel

end OpenKey
