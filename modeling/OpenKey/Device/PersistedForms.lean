import OpenKey.Device.OpenPgp
import OpenKey.Device.PivBlob

/-!
# The persisted forms of the PIV and OpenPGP states

The blobs that `serialize_state` of `yubico_piv.rs` and `yubico_openpgp.rs` writes, those that older
versions wrote, and the parsers of both files (`PivBlob.parseState`, `OpenPgpBlob.parseState`).

**Forms (`persisted_forms`).** Every state is read back as it was written. A blob of an older
version is read as the state with the PINs, retries and keys that are in it, and nothing else. A
blob that is accepted is one of these; with bytes behind it, it is rejected, and so is one with two
keys or two certificates in a slot. The parsers never panic.

A state has at most four keys and four certificates, and the lengths of its fields fit in front of
them, so nothing is cut off when it is written.
-/

namespace OpenKey

set_option autoImplicit false

/-- What a persisted form owes to the states that are written, to the blobs of older versions and
to the states they become, and to every other blob. -/
structure Persists {S : Type} (range : Nat) (parse : Bytes → Except Panic (Option S))
    (serialize : S → Bytes) (Older : Bytes → S → Prop) : Prop where
  current (state : S) : parse (serialize state) = .ok (some state)
  older (blob : Bytes) (state : S) (h : Older blob state) : parse blob = .ok (some state)
  careful (blob : Bytes) (h : IsSlice range blob) : ∃ result, parse blob = .ok result
  exact (blob : Bytes) (state : S) (hslice : IsSlice range blob)
    (h : parse blob = .ok (some state)) : blob = serialize state ∨ Older blob state
  trailing (blob extra : Bytes) (state : S) (hslice : IsSlice range (blob ++ extra))
    (hextra : extra ≠ []) (h : parse blob = .ok (some state)) : parse (blob ++ extra) = .ok none

/-- A parser that finds what a reader finds, where the reader accepts these blobs only. -/
theorem Persists.of_forms {S : Type} {range : Nat} {parse : Bytes → Except Panic (Option S)}
    {read : Bytes → Option S} {serialize : S → Bytes} {Older : Bytes → S → Prop}
    (hparse : ∀ blob, IsSlice range blob → parse blob = .ok (read blob))
    (hread : ∀ blob state, read blob = some state ↔ blob = serialize state ∨ Older blob state)
    (hslice : ∀ blob state, read blob = some state → IsSlice range blob)
    (hextra : ∀ blob extra state, read blob = some state → extra ≠ [] →
      read (blob ++ extra) = none) : Persists range parse serialize Older where
  current state := by
    have hstate := (hread _ state).mpr (.inl rfl)
    rw [hparse _ (hslice _ state hstate), hstate]
  older blob state h := by
    have hstate := (hread blob state).mpr (.inr h)
    rw [hparse _ (hslice blob state hstate), hstate]
  careful blob h := ⟨read blob, hparse blob h⟩
  exact blob state hblob h := by
    rw [hparse blob hblob] at h
    exact (hread blob state).mp (Except.ok.inj h)
  trailing blob extra state hblob hne h := by
    have hshort : IsSlice range blob := by
      unfold IsSlice at hblob ⊢
      rw [List.length_append] at hblob
      omega
    rw [hparse blob hshort] at h
    rw [hparse _ hblob, hextra blob extra state (Except.ok.inj h) hne]

namespace OpenPgpBlob

open Reading

/-! ## `parse_state` of the OpenPGP applet -/

/-- A password and its retries. -/
def readPassword : Reading Password := do
  let bytes ← prefixed
  if hbytes : 0 < bytes.length ∧ bytes.length ≤ 32 then do
    let retries ← byte
    if hretries : retries ≤ 3 then pure ⟨bytes, retries, hbytes, hretries⟩ else reject
  else reject

/-- A key. -/
def readKey : Reading ResidentKey := do
  let algId ← byte
  let alg ← orReject (KeyAlg.ofId algId)
  let privLen ← number2
  let privKey ← take privLen
  let pubLen ← number2
  let pubKey ← take pubLen
  if h : KeyLengthsOk alg privKey.length pubKey.length then pure ⟨alg, privKey, pubKey, h⟩
  else reject

/-- The key behind its flag. -/
def readSigKey : Reading (Option ResidentKey) := do
  let hasKey ← byte
  if hasKey = 0 then pure none
  else if hasKey = 1 then do
    let key ← readKey
    pure (some key)
  else reject

/-- `parse_state_v1`, behind the version. -/
def readV1 : Reading OpenPgpState := do
  let pw1 ← readPassword
  let pw3 ← readPassword
  pure ⟨pw1, pw3, none⟩

/-- `parse_state_v2`, behind the version. -/
def readV2 : Reading OpenPgpState := do
  let pw1 ← readPassword
  let pw3 ← readPassword
  let sigKey ← readSigKey
  pure ⟨pw1, pw3, sigKey⟩

/-- `parse_state`, where words have `range` values: the version is read again by the parser of its
format, which ends where the blob does. -/
def parseState (range : Nat) (blob : Bytes) : Except Panic (Option OpenPgpState) :=
  match blob with
  | [] => .ok none
  | version :: _ =>
      if version = 1 then Cursor.parse range (versioned 1 (readV1 >>= ending)) blob
      else if version = 2 then Cursor.parse range (versioned 2 (readV2 >>= ending)) blob
      else .ok none

theorem careful_readPassword : readPassword.Careful := by
  refine careful_prefixed.bind fun bytes => ?_
  split
  · refine careful_byte.bind fun retries => ?_
    split
    · exact careful_pure _
    · exact careful_reject
  · exact careful_reject

theorem careful_readKey : readKey.Careful := by
  refine careful_byte.bind fun algId => (careful_orReject _).bind fun alg =>
    careful_number2.bind fun privLen => (careful_take privLen).bind fun privKey =>
      careful_number2.bind fun pubLen => (careful_take pubLen).bind fun pubKey => ?_
  split
  · exact careful_pure _
  · exact careful_reject

theorem careful_readSigKey : readSigKey.Careful := by
  refine careful_byte.bind fun hasKey => ?_
  split
  · exact careful_pure none
  · split
    · exact careful_readKey.bind fun key => careful_pure (some key)
    · exact careful_reject

theorem careful_readV1 : readV1.Careful :=
  careful_readPassword.bind fun _ => careful_readPassword.bind fun _ => careful_pure _

theorem careful_readV2 : readV2.Careful :=
  careful_readPassword.bind fun _ => careful_readPassword.bind fun _ =>
    careful_readSigKey.bind fun _ => careful_pure _

theorem front_readPassword : front readPassword = Password.read := by
  unfold readPassword Password.read
  rw [front_bind, front_prefixed]
  refine bind_congr fun bytes => ?_
  split
  · next hbytes =>
      rw [front_bind, front_byte]
      refine bind_congr fun retries => ?_
      unfold Password.build
      by_cases hretries : retries ≤ 3
      · rw [dif_pos hretries, dif_pos ⟨hbytes, hretries⟩]
        rfl
      · rw [dif_neg hretries, dif_neg fun h => hretries h.2]
        rfl
  · next hbytes =>
      -- the other parser reads the retries before it looks at the password
      have hbuild (retries : UInt8) : Password.build bytes retries = failure :=
        dif_neg fun h => hbytes h.1
      simp only [hbuild, Blob.bind_failure]
      rfl

theorem front_readKey : front readKey = ResidentKey.read := by
  unfold readKey ResidentKey.read ResidentKey.readAlg Blob.prefixed
  simp only [bind_assoc]
  rw [front_bind, front_byte]
  refine bind_congr fun algId => ?_
  rw [front_bind]
  cases KeyAlg.ofId algId with
  | none => rfl
  | some alg =>
      have hknown : front (orReject (some alg)) = pure alg := rfl
      rw [hknown, Option.elim_some, pure_bind, pure_bind, front_bind, front_number2]
      refine bind_congr fun privLen => ?_
      rw [front_bind, front_take]
      refine bind_congr fun privKey => ?_
      rw [front_bind, front_number2]
      refine bind_congr fun pubLen => ?_
      rw [front_bind, front_take]
      refine bind_congr fun pubKey => ?_
      unfold ResidentKey.build
      split <;> rfl

theorem front_readSigKey : front readSigKey = OpenPgpState.readSigKey := by
  unfold readSigKey OpenPgpState.readSigKey
  rw [front_bind, front_byte]
  refine bind_congr fun hasKey => ?_
  split
  · rfl
  · split
    · rw [front_bind, front_readKey]
      rfl
    · rfl

theorem front_readV1 : front readV1 = OpenPgpState.readV1 := by
  simp only [readV1, OpenPgpState.readV1, front_bind, front_readPassword]
  rfl

theorem front_readV2 : front readV2 = OpenPgpState.readV2 := by
  simp only [readV2, OpenPgpState.readV2, front_bind, front_readPassword, front_readSigKey]
  rfl

/-- The parser of the source finds what `OpenPgpState.parse` finds. -/
theorem parseState_eq {range : Nat} {blob : Bytes} (h : blob.length < range) :
    parseState range blob = .ok (OpenPgpState.parse blob) := by
  cases blob with
  | nil => rfl
  | cons version body =>
      simp only [parseState, OpenPgpState.parse]
      split
      · next hversion =>
          subst hversion
          rw [Cursor.parse_versioned careful_readV1 1 h, front_readV1]
      · split
        · next hversion =>
            subst hversion
            rw [Cursor.parse_versioned careful_readV2 2 h, front_readV2]
        · rfl

/-! ## Forms of the OpenPGP state -/

/-- The format F1. -/
def formV1 (pw1 pw3 : Password) : Bytes := 1 :: (pw1.serialize ++ pw3.serialize)

/-- The blobs of version 1, and the states they become: the key is missing. -/
inductive Older : Bytes → OpenPgpState → Prop
  | v1 (pw1 pw3 : Password) : Older (formV1 pw1 pw3) ⟨pw1, pw3, none⟩

theorem inverts_password : Blob.Inverts Password.read Password.serialize := by
  intro bytes pw rest h
  obtain ⟨taken, atRetries, hbytes, h⟩ := Blob.bind_eq_some h
  obtain ⟨retries, behind, hretries, h⟩ := Blob.bind_eq_some h
  unfold Password.build at h
  split at h
  · cases h
    rw [Blob.inverts_prefixed 1 _ _ _ hbytes, Blob.inverts_byte _ _ _ hretries]
    simp only [Password.serialize, List.append_assoc]
  · cases h

theorem inverts_sigKey :
    Blob.Inverts OpenPgpState.readSigKey OpenPgpState.serializeSigKey := by
  intro bytes sigKey rest h
  obtain ⟨hasKey, behind, hbyte, h⟩ := Blob.bind_eq_some h
  rw [Blob.inverts_byte _ _ _ hbyte]
  split at h
  · next hzero =>
      cases h
      rw [hzero]
      rfl
  · split at h
    · next hone =>
        obtain ⟨key, behind, hkey, h⟩ := Blob.bind_eq_some h
        cases h
        rw [ResidentKey.inverts_read _ _ _ hkey, hone]
        rfl
    · cases h

theorem reads_v1 (pw1 pw3 : Password) :
    Blob.Reads OpenPgpState.readV1 (formV1 pw1 pw3).tail ⟨pw1, pw3, none⟩ :=
  Blob.reads_bind pw1.reads_serialize
    (Blob.reads_bind_last pw3.reads_serialize (Blob.reads_pure _))

theorem readV1_eq_some {bytes rest : Bytes} {state : OpenPgpState}
    (h : OpenPgpState.readV1 bytes = some (state, rest)) :
    1 :: bytes = formV1 state.pw1 state.pw3 ++ rest ∧ state.sigKey = none := by
  obtain ⟨pw1, atPw3, hpw1, h⟩ := Blob.bind_eq_some h
  obtain ⟨pw3, behind, hpw3, h⟩ := Blob.bind_eq_some h
  cases h
  rw [inverts_password _ _ _ hpw1, inverts_password _ _ _ hpw3]
  simp only [formV1, List.cons_append, List.append_assoc, and_self]

theorem readV2_eq_some {bytes rest : Bytes} {state : OpenPgpState}
    (h : OpenPgpState.readV2 bytes = some (state, rest)) :
    2 :: bytes = state.serialize ++ rest := by
  obtain ⟨pw1, atPw3, hpw1, h⟩ := Blob.bind_eq_some h
  obtain ⟨pw3, atKey, hpw3, h⟩ := Blob.bind_eq_some h
  obtain ⟨sigKey, behind, hkey, h⟩ := Blob.bind_eq_some h
  cases h
  rw [inverts_password _ _ _ hpw1, inverts_password _ _ _ hpw3, inverts_sigKey _ _ _ hkey]
  simp only [OpenPgpState.serialize, List.cons_append, List.append_assoc]

/-- The blobs that are accepted. -/
theorem parse_eq_some_iff (blob : Bytes) (state : OpenPgpState) :
    OpenPgpState.parse blob = some state ↔ blob = state.serialize ∨ Older blob state := by
  constructor
  · intro h
    cases blob with
    | nil => cases h
    | cons version body =>
        simp only [OpenPgpState.parse] at h
        split at h
        · next hversion =>
            obtain ⟨hbytes, hkey⟩ := readV1_eq_some (Blob.read_of_whole h)
            rw [List.append_nil] at hbytes
            rw [hversion, hbytes]
            obtain ⟨pw1, pw3, sigKey⟩ := state
            obtain rfl : sigKey = none := hkey
            exact .inr (.v1 pw1 pw3)
        · split at h
          · next hversion =>
              have hbytes := readV2_eq_some (Blob.read_of_whole h)
              rw [List.append_nil] at hbytes
              exact .inl (by rw [hversion, hbytes])
          · cases h
  · intro h
    obtain rfl | hold := h
    · exact state.parse_serialize
    · cases hold with
      | v1 pw1 pw3 => exact Blob.whole_of_reads (reads_v1 pw1 pw3)

theorem parse_extra (blob extra : Bytes) (state : OpenPgpState)
    (h : OpenPgpState.parse blob = some state) (hextra : extra ≠ []) :
    OpenPgpState.parse (blob ++ extra) = none := by
  obtain rfl | hold := (parse_eq_some_iff blob state).mp h
  · exact Blob.whole_append state.reads_v2 hextra
  · cases hold with
    | v1 pw1 pw3 => exact Blob.whole_append (reads_v1 pw1 pw3) hextra

theorem length_password (pw : Password) : pw.serialize.length ≤ 34 := by
  have hlen := pw.bytes_ok
  simp only [Password.serialize, List.length_append, Bytes.length_beBytes, List.length_singleton]
  omega

theorem isSlice_of_parse {range : Nat} (hrange : 2 ^ 32 ≤ range) (blob : Bytes)
    (state : OpenPgpState) (h : OpenPgpState.parse blob = some state) : IsSlice range blob := by
  have hpw1 := length_password state.pw1
  have hpw3 := length_password state.pw3
  have hkey : (OpenPgpState.serializeSigKey state.sigKey).length ≤ 2 ^ 18 + 1 := by
    cases state.sigKey with
    | none => decide
    | some key =>
        have hlen := key.length_serialize_le
        simp only [OpenPgpState.serializeSigKey, List.length_append, List.length_singleton]
        omega
  unfold IsSlice
  obtain rfl | hold := (parse_eq_some_iff blob state).mp h
  · simp only [OpenPgpState.serialize, List.length_cons, List.length_append]
    omega
  · cases hold with
    | v1 pw1 pw3 =>
        have hpw1 := length_password pw1
        have hpw3 := length_password pw3
        simp only [formV1, List.length_cons, List.length_append]
        omega

theorem persists {range : Nat} (hrange : 2 ^ 32 ≤ range) :
    Persists range (parseState range) OpenPgpState.serialize Older :=
  .of_forms (fun blob h => parseState_eq (by unfold IsSlice at h; omega)) parse_eq_some_iff
    (isSlice_of_parse hrange) parse_extra

end OpenPgpBlob

namespace PivBlob

/-! ## Forms of the PIV state -/

/-- The format F1: the PIN and its retries. -/
def formV1 (pin : Bytes) (retries : UInt8) : Bytes :=
  1 :: (Bytes.beBytes 1 pin.length ++ pin ++ [retries])

/-- The format F2a: the PIN, its retries and keys, whatever their slots. -/
def formV2 (pin : Bytes) (retries : UInt8) (keys : List PivKey) : Bytes :=
  2 :: (Bytes.beBytes 1 pin.length ++ pin ++ ([retries] ++
    (Bytes.beBytes 1 keys.length ++ keys.flatMap PivState.serializeKey)))

/-- The format F2d, with certificates. -/
def formV3 (pin : Bytes) (retries : UInt8) (keys : List PivKey) (certs : List PivCert) : Bytes :=
  3 :: (Bytes.beBytes 1 pin.length ++ pin ++ ([retries] ++
    (Bytes.beBytes 1 keys.length ++ (keys.flatMap PivState.serializeKey ++
    (Bytes.beBytes 1 certs.length ++ certs.flatMap PivState.serializeCert)))))

/-- The blobs of versions 1 and 2, and the states they become: what the format has no place for is
missing. -/
inductive Older : Bytes → PivState → Prop
  | v1 (pin : Bytes) (retries : UInt8) (hpin : 6 ≤ pin.length ∧ pin.length ≤ 8)
      (hretries : retries ≤ 3) :
      Older (formV1 pin retries)
        ⟨pin, retries, [], [], hpin, hretries, List.nodup_nil, List.nodup_nil⟩
  | v2 (pin : Bytes) (retries : UInt8) (keys : List PivKey)
      (hpin : 6 ≤ pin.length ∧ pin.length ≤ 8) (hretries : retries ≤ 3)
      (hkeys : (keys.map PivKey.slot).Nodup) :
      Older (formV2 pin retries keys)
        ⟨pin, retries, keys, [], hpin, hretries, hkeys, List.nodup_nil⟩

section

variable {pin : Bytes} {keys : List PivKey} {certs : List PivCert}

theorem parse_formV1 (hpin : pin.length < 256) (retries : UInt8) (extra : Bytes) :
    PivState.parse (formV1 pin retries ++ extra) =
      Blob.whole (PivState.build pin retries [] []) extra := by
  show Blob.whole PivState.readV1 ((Bytes.beBytes 1 pin.length ++ pin ++ [retries]) ++ extra) = _
  rw [List.append_assoc _ [retries], PivState.readV1,
    Blob.whole_reads_bind (Blob.reads_prefixed hpin), Blob.whole_reads_bind (Blob.reads_byte _)]

theorem parse_formV2 (hpin : pin.length < 256) (hkeys : keys.length < 256) (retries : UInt8)
    (extra : Bytes) :
    PivState.parse (formV2 pin retries keys ++ extra) =
      Blob.whole (PivState.build pin retries keys []) extra := by
  show Blob.whole PivState.readV2 ((Bytes.beBytes 1 pin.length ++ pin ++ ([retries] ++
    (Bytes.beBytes 1 keys.length ++ keys.flatMap PivState.serializeKey))) ++ extra) = _
  simp only [List.append_assoc]
  rw [← List.append_assoc (Bytes.beBytes 1 pin.length), PivState.readV2,
    Blob.whole_reads_bind (Blob.reads_prefixed hpin), Blob.whole_reads_bind (Blob.reads_byte _),
    Blob.whole_reads_bind (Blob.reads_number hkeys),
    Blob.whole_reads_bind (Blob.reads_many fun key _ => PivState.reads_key key)]

theorem parse_formV3 (hpin : pin.length < 256) (hkeys : keys.length < 256)
    (hcerts : certs.length < 256) (retries : UInt8) (extra : Bytes) :
    PivState.parse (formV3 pin retries keys certs ++ extra) =
      Blob.whole (PivState.build pin retries keys certs) extra := by
  show Blob.whole PivState.readV3 ((Bytes.beBytes 1 pin.length ++ pin ++ ([retries] ++
    (Bytes.beBytes 1 keys.length ++ (keys.flatMap PivState.serializeKey ++
    (Bytes.beBytes 1 certs.length ++ certs.flatMap PivState.serializeCert))))) ++ extra) = _
  simp only [List.append_assoc]
  rw [← List.append_assoc (Bytes.beBytes 1 pin.length), PivState.readV3,
    Blob.whole_reads_bind (Blob.reads_prefixed hpin), Blob.whole_reads_bind (Blob.reads_byte _),
    Blob.whole_reads_bind (Blob.reads_number hkeys),
    Blob.whole_reads_bind (Blob.reads_many fun key _ => PivState.reads_key key),
    Blob.whole_reads_bind (Blob.reads_number hcerts),
    Blob.whole_reads_bind (Blob.reads_many fun cert _ => PivState.reads_cert cert)]

end

/-- Where nothing is left, the state is there if its parts are in bounds. -/
theorem whole_build (state : PivState) :
    Blob.whole (PivState.build state.pin state.retries state.keys state.certs) [] = some state :=
  Blob.whole_of_reads (PivState.reads_build state)

theorem whole_build_extra {pin : Bytes} {retries : UInt8} {keys : List PivKey}
    {certs : List PivCert} {extra : Bytes}
    (h : extra ≠ [] ∨ ¬(keys.map PivKey.slot).Nodup ∨ ¬(certs.map PivCert.slot).Nodup) :
    Blob.whole (PivState.build pin retries keys certs) extra = none := by
  cases hwhole : Blob.whole (PivState.build pin retries keys certs) extra with
  | none => rfl
  | some state =>
      obtain ⟨⟨-, -, rfl, rfl⟩, hnil⟩ := build_eq_some (Blob.read_of_whole hwhole)
      obtain hextra | hkeys | hcerts := h
      · exact absurd hnil hextra
      · exact absurd state.keys_ok hkeys
      · exact absurd state.certs_ok hcerts

theorem readV2_eq_some {bytes rest : Bytes} {state : PivState}
    (h : PivState.readV2 bytes = some (state, rest)) :
    2 :: bytes = formV2 state.pin state.retries state.keys ++ rest ∧ state.certs = [] := by
  obtain ⟨pin, atRetries, hpin, h⟩ := Blob.bind_eq_some h
  obtain ⟨retries, atCount, hretries, h⟩ := Blob.bind_eq_some h
  obtain ⟨numKeys, atKeys, hcount, h⟩ := Blob.bind_eq_some h
  obtain ⟨keys, behind, hkeys, h⟩ := Blob.bind_eq_some h
  obtain ⟨⟨rfl, rfl, rfl, hcerts⟩, rfl⟩ := build_eq_some h
  obtain ⟨hkeys, hlen⟩ := Blob.many_eq_some inverts_key hkeys
  rw [Blob.inverts_prefixed 1 _ _ _ hpin, Blob.inverts_byte _ _ _ hretries,
    Blob.inverts_number 1 _ _ _ hcount, hkeys, ← hlen]
  simp only [formV2, List.cons_append, List.append_assoc, hcerts, and_self]

theorem readV3_eq_some {bytes rest : Bytes} {state : PivState}
    (h : PivState.readV3 bytes = some (state, rest)) : 3 :: bytes = state.serialize ++ rest := by
  obtain ⟨pin, atRetries, hpin, h⟩ := Blob.bind_eq_some h
  obtain ⟨retries, atCount, hretries, h⟩ := Blob.bind_eq_some h
  obtain ⟨numKeys, atKeys, hcount, h⟩ := Blob.bind_eq_some h
  obtain ⟨keys, atCertCount, hkeys, h⟩ := Blob.bind_eq_some h
  obtain ⟨numCerts, atCerts, hcertCount, h⟩ := Blob.bind_eq_some h
  obtain ⟨certs, behind, hcerts, h⟩ := Blob.bind_eq_some h
  obtain ⟨⟨rfl, rfl, rfl, rfl⟩, rfl⟩ := build_eq_some h
  obtain ⟨hkeys, hkeysLen⟩ := Blob.many_eq_some inverts_key hkeys
  obtain ⟨hcerts, hcertsLen⟩ := Blob.many_eq_some inverts_cert hcerts
  rw [Blob.inverts_prefixed 1 _ _ _ hpin, Blob.inverts_byte _ _ _ hretries,
    Blob.inverts_number 1 _ _ _ hcount, hkeys, ← hkeysLen,
    Blob.inverts_number 1 _ _ _ hcertCount, hcerts, ← hcertsLen]
  simp only [PivState.serialize, List.cons_append, List.append_assoc]

theorem parse_older {blob : Bytes} (extra : Bytes) {state : PivState} (h : Older blob state) :
    PivState.parse (blob ++ extra) =
      Blob.whole (PivState.build state.pin state.retries state.keys state.certs) extra := by
  cases h with
  | v1 pin retries hpin hretries => exact parse_formV1 (by omega) retries extra
  | v2 pin retries keys hpin hretries hkeys =>
      have hcount := length_le_slots hkeys
      exact parse_formV2 (by omega) (by omega) retries extra

theorem parse_current (extra : Bytes) (state : PivState) :
    PivState.parse (state.serialize ++ extra) =
      Blob.whole (PivState.build state.pin state.retries state.keys state.certs) extra := by
  have hpin := state.pin_ok
  have hkeys := length_le_slots state.keys_ok
  have hcerts := length_le_slots state.certs_ok
  exact parse_formV3 (by omega) (by omega) (by omega) state.retries extra

/-- The blobs that are accepted. -/
theorem parse_eq_some_iff (blob : Bytes) (state : PivState) :
    PivState.parse blob = some state ↔ blob = state.serialize ∨ Older blob state := by
  constructor
  · intro h
    cases blob with
    | nil => cases h
    | cons version body =>
        simp only [PivState.parse] at h
        obtain ⟨pin, retries, keys, certs, hpin, hretries, hkeys, hcerts⟩ := state
        split at h
        · next hversion =>
            obtain ⟨hbytes, hnoKeys, hnoCerts⟩ := eq_of_readV1 (Blob.read_of_whole h)
            obtain rfl : keys = [] := hnoKeys
            obtain rfl : certs = [] := hnoCerts
            rw [List.append_nil] at hbytes
            rw [hversion, hbytes]
            exact .inr (.v1 pin retries hpin hretries)
        · split at h
          · next hversion =>
              obtain ⟨hbytes, hnoCerts⟩ := readV2_eq_some (Blob.read_of_whole h)
              obtain rfl : certs = [] := hnoCerts
              rw [List.append_nil] at hbytes
              rw [hversion, hbytes]
              exact .inr (.v2 pin retries keys hpin hretries hkeys)
          · split at h
            · next hversion =>
                have hbytes := readV3_eq_some (Blob.read_of_whole h)
                rw [List.append_nil] at hbytes
                exact .inl (by rw [hversion, hbytes])
            · cases h
  · intro h
    obtain rfl | hold := h
    · exact state.parse_serialize
    · have hparse := parse_older [] hold
      rwa [List.append_nil, whole_build] at hparse

theorem parse_extra (blob extra : Bytes) (state : PivState)
    (h : PivState.parse blob = some state) (hextra : extra ≠ []) :
    PivState.parse (blob ++ extra) = none := by
  obtain rfl | hold := (parse_eq_some_iff blob state).mp h
  · rw [parse_current, whole_build_extra (.inl hextra)]
  · rw [parse_older extra hold, whole_build_extra (.inl hextra)]

theorem length_keys {keys : List PivKey} (h : keys.length < 256) :
    (keys.flatMap PivState.serializeKey).length ≤ 2 ^ 27 := by
  have hlen := Bytes.length_flatMap_le (f := PivState.serializeKey) (k := 2 ^ 18 + 1) (l := keys)
    fun key _ => by
      have hkey := key.key.length_serialize_le
      simp only [PivState.serializeKey, List.length_append, List.length_singleton]
      omega
  omega

theorem length_certs {certs : List PivCert} (h : certs.length < 256) :
    (certs.flatMap PivState.serializeCert).length ≤ 2 ^ 20 := by
  have hlen := Bytes.length_flatMap_le (f := PivState.serializeCert) (k := 2051) (l := certs)
    fun cert _ => by
      have hcert := cert.der_ok
      rw [length_serializeCert]
      omega
  omega

section

variable {range : Nat} (hrange : 2 ^ 32 ≤ range) {pin : Bytes} (hpin : pin.length < 256)
  (retries : UInt8) {keys : List PivKey} (hkeys : keys.length < 256) {certs : List PivCert}
  (hcerts : certs.length < 256)

include hrange hpin

theorem isSlice_formV1 : IsSlice range (formV1 pin retries) := by
  simp only [IsSlice, formV1, List.length_cons, List.length_append, List.length_nil,
    Bytes.length_beBytes]
  omega

include hkeys

theorem isSlice_formV2 : IsSlice range (formV2 pin retries keys) := by
  have hlen := length_keys hkeys
  simp only [IsSlice, formV2, List.length_cons, List.length_append, List.length_nil,
    Bytes.length_beBytes]
  omega

/-- Two keys in a slot. -/
theorem parseState_duplicates_v2 (h : ¬(keys.map PivKey.slot).Nodup) :
    parseState range (formV2 pin retries keys) = .ok none := by
  have hparse := parse_formV2 hpin hkeys retries []
  rw [List.append_nil, whole_build_extra (.inr (.inl h))] at hparse
  rw [parseState_eq hrange (isSlice_formV2 hrange hpin retries hkeys), hparse]

include hcerts

theorem isSlice_formV3 : IsSlice range (formV3 pin retries keys certs) := by
  have hlenKeys := length_keys hkeys
  have hlenCerts := length_certs hcerts
  simp only [IsSlice, formV3, List.length_cons, List.length_append, List.length_nil,
    Bytes.length_beBytes]
  omega

/-- Two keys or two certificates in a slot. -/
theorem parseState_duplicates
    (h : ¬(keys.map PivKey.slot).Nodup ∨ ¬(certs.map PivCert.slot).Nodup) :
    parseState range (formV3 pin retries keys certs) = .ok none := by
  have hparse := parse_formV3 hpin hkeys hcerts retries []
  rw [List.append_nil, whole_build_extra (.inr h)] at hparse
  rw [parseState_eq hrange (isSlice_formV3 hrange hpin retries hkeys hcerts), hparse]

end

theorem isSlice_of_parse {range : Nat} (hrange : 2 ^ 32 ≤ range) (blob : Bytes)
    (state : PivState) (h : PivState.parse blob = some state) : IsSlice range blob := by
  have hpin := state.pin_ok
  have hkeys := length_le_slots state.keys_ok
  have hcerts := length_le_slots state.certs_ok
  obtain rfl | hold := (parse_eq_some_iff blob state).mp h
  · exact isSlice_formV3 hrange (by omega) state.retries (by omega) (by omega)
  · cases hold with
    | v1 pin retries hpin hretries => exact isSlice_formV1 hrange (by omega) retries
    | v2 pin retries keys hpin hretries hnodup =>
        have hcount := length_le_slots hnodup
        exact isSlice_formV2 hrange (by omega) retries (by omega)

theorem persists {range : Nat} (hrange : 2 ^ 32 ≤ range) :
    Persists range (parseState range) PivState.serialize Older :=
  .of_forms (fun _ h => parseState_eq hrange h) parse_eq_some_iff (isSlice_of_parse hrange)
    parse_extra

end PivBlob

/-- **The persisted forms of both states are read back, the older ones too, and nothing else.** -/
theorem persisted_forms {range : Nat} (hrange : 2 ^ 32 ≤ range) :
    Persists range (PivBlob.parseState range) PivState.serialize PivBlob.Older ∧
    Persists range (OpenPgpBlob.parseState range) OpenPgpState.serialize OpenPgpBlob.Older ∧
    ∀ (pin : Bytes) (retries : UInt8) (keys : List PivKey) (certs : List PivCert),
      pin.length < 256 → keys.length < 256 → certs.length < 256 →
      (¬(keys.map PivKey.slot).Nodup ∨ ¬(certs.map PivCert.slot).Nodup →
        PivBlob.parseState range (PivBlob.formV3 pin retries keys certs) = .ok none) ∧
      (¬(keys.map PivKey.slot).Nodup →
        PivBlob.parseState range (PivBlob.formV2 pin retries keys) = .ok none) := by
  refine ⟨PivBlob.persists hrange, OpenPgpBlob.persists hrange, ?_⟩
  intro pin retries keys certs hpin hkeys hcerts
  exact ⟨PivBlob.parseState_duplicates hrange hpin retries hkeys hcerts,
    PivBlob.parseState_duplicates_v2 hrange hpin retries hkeys⟩

/-- A pair of Ed25519. -/
def edPair : ResidentKey where
  alg := .ed25519
  privKey := Bytes.beBytes 32 0x9d61b19deffd5a60ba844af492ec2cc44449c5697b326919703bac031cae7f60
  pubKey := Bytes.beBytes 32 0xd75a980182b10ab7d54bfed3c964073a0ee172f3daa62325af021a68f707511a
  lengths_ok := by decide

/-- Something of the lengths of a pair of P-256. -/
def p256Pair : ResidentKey where
  alg := .p256
  privKey := 0x30 :: List.replicate 137 0x01
  pubKey := 0x04 :: List.replicate 64 0x02
  lengths_ok := by decide +kernel

/-- A certificate of the authentication slot. -/
def authCert : PivCert := ⟨.pivAuth, 0x30 :: List.replicate 300 0x03, by decide +kernel⟩

/-- A PIV state with two keys and a certificate, after one wrong PIN. -/
def pivWithKeys : PivState where
  pin := [0x36, 0x35, 0x34, 0x33, 0x32, 0x31]
  retries := 2
  keys := [⟨.pivAuth, p256Pair⟩, ⟨.digSig, edPair⟩]
  certs := [authCert]
  pin_ok := by decide
  retries_ok := by decide
  keys_ok := by decide
  certs_ok := by decide

def openPgpWithKey : OpenPgpState := { OpenPgpState.factory with sigKey := some edPair }

/-- States with keys and a certificate are read back, the older form without the certificate; with
a byte behind it, or the certificate twice, nothing is read. -/
theorem persisted_forms_keys :
    PivBlob.parseState (2 ^ 64) pivWithKeys.serialize = .ok (some pivWithKeys) ∧
    PivBlob.parseState (2 ^ 64) (PivBlob.formV2 pivWithKeys.pin 2 pivWithKeys.keys) =
      .ok (some { pivWithKeys with certs := [], certs_ok := List.nodup_nil }) ∧
    PivBlob.parseState (2 ^ 64) (pivWithKeys.serialize ++ [0]) = .ok none ∧
    PivBlob.parseState (2 ^ 64)
      (PivBlob.formV3 pivWithKeys.pin 2 pivWithKeys.keys [authCert, authCert]) = .ok none ∧
    OpenPgpBlob.parseState (2 ^ 64) openPgpWithKey.serialize = .ok (some openPgpWithKey) := by
  obtain ⟨hpiv, hopenPgp, htwice⟩ := @persisted_forms (2 ^ 64) (by decide)
  have hcurrent := hpiv.current pivWithKeys
  refine ⟨hcurrent, hpiv.older _ _ (.v2 _ 2 _ (by decide) (by decide) (by decide)),
    hpiv.trailing _ [0] _ ?_ (by decide) hcurrent, ?_, hopenPgp.current _⟩
  · unfold IsSlice
    decide +kernel
  · exact (htwice _ 2 _ _ (by decide) (by decide) (by decide)).1 (.inr (by decide))

end OpenKey
