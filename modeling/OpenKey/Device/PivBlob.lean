import OpenKey.Device.Piv
import OpenKey.Library.Cursor

/-!
# The blob of the PIV state

`PivBlob.parseState` is `parse_state` as the source has it: an index into the blob moves forward,
the room for an item is checked before the item is read, sums panic when they leave the range of a
word, and so does a read outside the blob.

**Panics.** There is none on a blob of at most `isize::MAX` bytes, and the parser finds what
`PivState.parse` finds there (`parseState_eq`). Step by step: where an item is found at an index,
the reader takes the same item off the front of the bytes from there on (`Follows`).
-/

namespace OpenKey

set_option autoImplicit false

/-- A slice has at most `isize::MAX` bytes, where words have `range` values. -/
def IsSlice (range : Nat) (blob : Bytes) : Prop := blob.length < range / 2

namespace PivBlob

/-! ## `parse_state` -/

section

variable (range : Nat) (blob : Bytes)

/-- The sum of two words. -/
def plus (a b : Nat) : Except Stop Nat :=
  if a + b < range then .ok (a + b) else .error (.panic .overflow)

/-- `if blob.len() < stop { return None; }`. -/
def room (stop : Nat) : Except Stop Unit :=
  if blob.length < stop then .error .rejected else .ok ()

/-- `if !c { return None; }`. -/
def accept (c : Prop) [Decidable c] : Except Stop Unit :=
  if c then .ok () else .error .rejected

/-- The value, or the blob is rejected. -/
def known {α : Type} (value : Option α) : Except Stop α := value.elim (.error .rejected) .ok

/-- `blob[i]`. -/
def byteAt (i : Nat) : Except Stop UInt8 := (Checked.byte blob i).mapError .panic

/-- `blob[i..j]`. -/
def sliceOf (i j : Nat) : Except Stop Bytes := (Checked.slice blob i j).mapError .panic

/-- `u16::from_be_bytes([blob[i], blob[i + 1]])`. -/
def wordAt (i : Nat) : Except Stop Nat := do
  let hi ← byteAt blob i
  let j ← plus range i 1
  let lo ← byteAt blob j
  pure (Bytes.beNat [hi, lo])

/-- A state around its parts: the last checks, after which no slot is taken twice. -/
def finish (pin : Bytes) (retries : UInt8) (keys : List PivKey) (certs : List PivCert) :
    Except Stop PivState :=
  if h : (6 ≤ pin.length ∧ pin.length ≤ 8) ∧ retries ≤ 3 ∧ (keys.map PivKey.slot).Nodup ∧
      (certs.map PivCert.slot).Nodup then
    .ok (.ofParts pin retries keys certs h)
  else .error .rejected

/-- `parse_state_v1`. -/
def parseV1 : Except Stop PivState := do
  room blob 3
  let version ← byteAt blob 0
  accept (version = 1)
  let pinLen ← byteAt blob 1
  accept (6 ≤ pinLen.toNat ∧ pinLen.toNat ≤ 8)
  let stop ← plus range 2 pinLen.toNat
  let size ← plus range stop 1
  accept (blob.length = size)
  let pin ← sliceOf blob 2 stop
  let retries ← byteAt blob stop
  accept (retries ≤ 3)
  finish pin retries [] []

/-- The start of a blob of `least` bytes or more: the PIN, its retries, the number of keys, and the
index behind them. -/
def parseHeader (least : Nat) (version : UInt8) : Except Stop (Bytes × UInt8 × Nat × Nat) := do
  room blob least
  let first ← byteAt blob 0
  accept (first = version)
  let pinLen ← byteAt blob 1
  accept (6 ≤ pinLen.toNat ∧ pinLen.toNat ≤ 8)
  let stop ← plus range 2 pinLen.toNat
  let behind ← plus range stop 2
  room blob behind
  let pin ← sliceOf blob 2 stop
  let retries ← byteAt blob stop
  accept (retries ≤ 3)
  let countAt ← plus range stop 1
  let numKeys ← byteAt blob countAt
  pure (pin, retries, numKeys.toNat, behind)

/-- One key at an index, and the index behind it. -/
def parseKey (cursor : Nat) : Except Stop (PivKey × Nat) := do
  let lenAt ← plus range cursor 2
  let header ← plus range lenAt 2
  room blob header
  let slotId ← byteAt blob cursor
  let algAt ← plus range cursor 1
  let algId ← byteAt blob algAt
  let slot ← known (PivSlot.ofId slotId)
  let alg ← known (KeyAlg.ofId algId)
  let privLen ← wordAt range blob lenAt
  let pubLenAt ← plus range header privLen
  let pubAt ← plus range pubLenAt 2
  room blob pubAt
  let privKey ← sliceOf blob header pubLenAt
  let pubLen ← wordAt range blob pubLenAt
  let behind ← plus range pubAt pubLen
  room blob behind
  let pubKey ← sliceOf blob pubAt behind
  if h : KeyLengthsOk alg privKey.length pubKey.length then
    pure (⟨slot, ⟨alg, privKey, pubKey, h⟩⟩, behind)
  else .error .rejected

/-- One certificate at an index, and the index behind it. -/
def parseCert (cursor : Nat) : Except Stop (PivCert × Nat) := do
  let lenAt ← plus range cursor 1
  let derAt ← plus range lenAt 2
  room blob derAt
  let slotId ← byteAt blob cursor
  let slot ← known (PivSlot.ofId slotId)
  let certLen ← wordAt range blob lenAt
  accept (0 < certLen ∧ certLen ≤ 2048)
  let behind ← plus range derAt certLen
  room blob behind
  let der ← sliceOf blob derAt behind
  -- the length of the slice is the one that has just been checked
  if h : 0 < der.length ∧ der.length ≤ 2048 then pure (⟨slot, der, h⟩, behind)
  else .error .rejected

end

/-- `for _ in 0..n`, with what is found at the indices. -/
def parseMany {α : Type} (parseOne : Nat → Except Stop (α × Nat)) :
    Nat → Nat → Except Stop (List α × Nat)
  | 0, cursor => .ok ([], cursor)
  | n + 1, cursor => do
      let (a, next) ← parseOne cursor
      let (as, behind) ← parseMany parseOne n next
      pure (a :: as, behind)

section

variable (range : Nat) (blob : Bytes)

/-- `parse_state_v2`. -/
def parseV2 : Except Stop PivState := do
  let (pin, retries, numKeys, cursor) ← parseHeader range blob 4 2
  let (keys, behind) ← parseMany (parseKey range blob) numKeys cursor
  accept (behind = blob.length)
  finish pin retries keys []

/-- `parse_state_v3`. -/
def parseV3 : Except Stop PivState := do
  let (pin, retries, numKeys, cursor) ← parseHeader range blob 5 3
  let (keys, countAt) ← parseMany (parseKey range blob) numKeys cursor
  let start ← plus range countAt 1
  room blob start
  let numCerts ← byteAt blob countAt
  let (certs, behind) ← parseMany (parseCert range blob) numCerts.toNat start
  accept (behind = blob.length)
  finish pin retries keys certs

/-- `parse_state`, where words have `range` values. -/
def parse : Except Stop PivState :=
  match blob with
  | [] => .error .rejected
  | version :: _ =>
      if version = 1 then parseV1 range blob
      else if version = 2 then parseV2 range blob
      else if version = 3 then parseV3 range blob
      else .error .rejected

/-- `parse_state`, with `None` where the blob is rejected. -/
def parseState : Except Panic (Option PivState) :=
  match parse range blob with
  | .ok state => .ok (some state)
  | .error .rejected => .ok none
  | .error (.panic p) => .error p

end

/-! ## At an index and off the front -/

section

variable {range : Nat} {blob : Bytes}

theorem ok_bind {α β : Type} (a : α) (f : α → Except Stop β) : (Except.ok a >>= f) = f a := rfl

theorem error_bind {α β : Type} (stop : Stop) (f : α → Except Stop β) :
    (Except.error stop >>= f) = .error stop := rfl

theorem plus_ok {a b : Nat} (h : a + b < range) : plus range a b = .ok (a + b) := if_pos h

theorem room_ok {stop : Nat} (h : stop ≤ blob.length) : room blob stop = .ok () :=
  if_neg (Nat.not_lt.mpr h)

theorem room_error {stop : Nat} (h : blob.length < stop) : room blob stop = .error .rejected :=
  if_pos h

theorem accept_ok {c : Prop} [Decidable c] (h : c) : accept c = .ok () := if_pos h

theorem accept_error {c : Prop} [Decidable c] (h : ¬c) : accept c = .error .rejected := if_neg h

variable (blob) in
theorem exists_byte {i : Nat} (h : i < blob.length) :
    ∃ b, byteAt blob i = .ok b ∧ Blob.byte (blob.drop i) = some (b, blob.drop (i + 1)) := by
  refine ⟨blob[i], ?_, ?_⟩
  · rw [byteAt, Checked.byte_ok (List.getElem?_eq_getElem h)]
    rfl
  · rw [List.drop_eq_getElem_cons h]
    rfl

theorem number1_of_byte {bytes rest : Bytes} {b : UInt8} (h : Blob.byte bytes = some (b, rest)) :
    Blob.number 1 bytes = some (b.toNat, rest) := by
  rw [Blob.inverts_byte _ _ _ h]
  have hread := Blob.reads_number (w := 1) b.toNat_lt rest
  have hwrite : Bytes.beBytes 1 b.toNat = [b] := by
    have hnat : Bytes.beNat [b] = b.toNat := by simp [Bytes.beNat, Bytes.leNat]
    rw [← hnat]
    exact Bytes.beBytes_beNat [b]
  rwa [hwrite] at hread

theorem exists_word (hslice : IsSlice range blob) {i : Nat} (h : i + 2 ≤ blob.length) :
    ∃ n < 65536, wordAt range blob i = .ok n ∧
      Blob.number 2 (blob.drop i) = some (n, blob.drop (i + 2)) := by
  obtain ⟨hi, hhi, hhiFront⟩ := exists_byte blob (i := i) (by omega)
  obtain ⟨lo, hlo, hloFront⟩ := exists_byte blob (i := i + 1) (by omega)
  have hlt : Bytes.beNat [hi, lo] < 256 ^ 2 := Bytes.beNat_lt [hi, lo]
  refine ⟨Bytes.beNat [hi, lo], by omega, ?_, ?_⟩
  · unfold IsSlice at hslice
    rw [wordAt, hhi, plus_ok (by omega)]
    show (byteAt blob (i + 1) >>= _) = _
    rw [hlo]
    rfl
  · rw [Blob.inverts_byte _ _ _ hhiFront, Blob.inverts_byte _ _ _ hloFront]
    rfl

variable (blob) in
theorem exists_slice {i n : Nat} (h : i + n ≤ blob.length) :
    ∃ bytes, bytes.length = n ∧ sliceOf blob i (i + n) = .ok bytes ∧
      Blob.take n (blob.drop i) = some (bytes, blob.drop (i + n)) := by
  refine ⟨(blob.drop i).take n, ?_, ?_, ?_⟩
  · rw [List.length_take, List.length_drop]
    omega
  · rw [sliceOf, Checked.slice_ok (Nat.le_add_right i n) h, Nat.add_sub_cancel_left]
    rfl
  · rw [Blob.take, List.length_drop, if_pos (by omega), List.drop_drop]

theorem take_none {i n : Nat} (hi : i ≤ blob.length) (h : blob.length < i + n) :
    Blob.take n (blob.drop i) = none := by
  rw [Blob.take, List.length_drop, if_neg (by omega)]

theorem number_none {i w : Nat} (hi : i ≤ blob.length) (h : blob.length < i + w) :
    Blob.number w (blob.drop i) = none := by
  rw [Blob.number, Blob.run_bind, take_none hi h]
  rfl

/-- An item and the index behind it, and the item with the bytes from that index on; or none. -/
inductive Agrees {α : Type} (blob : Bytes) : Except Stop (α × Nat) → Option (α × Bytes) → Prop
  | rejected : Agrees blob (.error .rejected) none
  | found (a : α) {next : Nat} (h : next ≤ blob.length) :
      Agrees blob (.ok (a, next)) (some (a, blob.drop next))

/-- What is found at an index is what there is off the front of the bytes from there on. -/
def Follows {α : Type} (blob : Bytes) (step : Nat → Except Stop (α × Nat))
    (read : Blob.Reader α) : Prop :=
  ∀ cursor ≤ blob.length, Agrees blob (step cursor) (read (blob.drop cursor))

theorem Agrees.bind {α β : Type} {result : Except Stop (α × Nat)} {found : Option (α × Bytes)}
    {step : α → Nat → Except Stop (β × Nat)} {read : α → Blob.Reader β}
    (h : Agrees blob result found) (hnext : ∀ a, Follows blob (step a) (read a)) :
    Agrees blob (result >>= fun p => step p.1 p.2) (found.bind fun p => read p.1 p.2) := by
  cases h with
  | rejected => exact .rejected
  | found a hle => exact hnext a _ hle

theorem Agrees.whole {α β : Type} {result : Except Stop (α × Nat)} {read : Blob.Reader α}
    {bytes : Bytes} {step : α × Nat → Except Stop β} {k : α → Blob.Reader β}
    (h : Agrees blob result (read bytes))
    (hnext : ∀ a, ∀ next ≤ blob.length,
      step (a, next) = known (Blob.whole (k a) (blob.drop next))) :
    (result >>= step) = known (Blob.whole (read >>= k) bytes) := by
  generalize hfound : read bytes = found at h
  cases h with
  | rejected =>
      rw [Blob.whole_bind_none hfound]
      rfl
  | found a hle =>
      rw [Blob.whole_bind hfound]
      exact hnext a _ hle

theorem follows_many {α : Type} {step : Nat → Except Stop (α × Nat)} {read : Blob.Reader α}
    (h : Follows blob step read) (n : Nat) :
    Follows blob (parseMany step n) (Blob.many read n) := by
  induction n with
  | zero => exact fun cursor hcursor => .found [] hcursor
  | succ n ih =>
      intro cursor hcursor
      have htail (a : α) : Follows blob
          (fun next => parseMany step n next >>= fun p => .ok (a :: p.1, p.2))
          (Blob.many read n >>= fun as => pure (a :: as)) := by
        intro next hnext
        have hdone (as : List α) : Follows blob (fun behind => .ok (a :: as, behind))
            (pure (a :: as)) := fun behind hbehind => .found (a :: as) hbehind
        exact (ih next hnext).bind hdone
      exact (h cursor hcursor).bind htail

end

/-! ## Keys and certificates -/

theorem readSlot_eq_some {bytes rest : Bytes} {slot : PivSlot}
    (h : PivState.readSlot bytes = some (slot, rest)) : bytes = [slot.id] ++ rest := by
  obtain ⟨b, mid, hbyte, hid⟩ := Blob.bind_eq_some h
  rw [Blob.inverts_byte _ _ _ hbyte]
  unfold PivSlot.ofId at hid
  split at hid
  · next hb =>
      cases hid
      rw [hb]
      rfl
  · split at hid
    · next hb =>
        cases hid
        rw [hb]
        rfl
    · split at hid
      · next hb =>
          cases hid
          rw [hb]
          rfl
      · split at hid
        · next hb =>
            cases hid
            rw [hb]
            rfl
        · cases hid

/-- Only what is written for a key is read as that key. -/
theorem inverts_key : Blob.Inverts PivState.readKey PivState.serializeKey := by
  intro bytes key rest h
  obtain ⟨slot, atKey, hslot, h⟩ := Blob.bind_eq_some h
  obtain ⟨resident, behind, hkey, h⟩ := Blob.bind_eq_some h
  cases h
  rw [readSlot_eq_some hslot, ResidentKey.inverts_read _ _ _ hkey]
  unfold PivState.serializeKey
  rw [List.append_assoc]

/-- Only what is written for a certificate is read as that certificate. -/
theorem inverts_cert : Blob.Inverts PivState.readCert PivState.serializeCert := by
  intro bytes cert rest h
  obtain ⟨slot, atDer, hslot, h⟩ := Blob.bind_eq_some h
  obtain ⟨der, behind, hder, h⟩ := Blob.bind_eq_some h
  unfold PivState.buildCert at h
  split at h
  · cases h
    rw [readSlot_eq_some hslot, Blob.inverts_prefixed 2 _ _ _ hder]
    unfold PivState.serializeCert
    simp only [List.append_assoc]
  · cases h

section

variable {range : Nat} {blob : Bytes}

theorem length_serializeKey (key : PivKey) :
    (PivState.serializeKey key).length = 6 + key.key.privKey.length + key.key.pubKey.length := by
  unfold PivState.serializeKey ResidentKey.serialize
  simp only [List.length_append, List.length_singleton, Bytes.length_beBytes]
  omega

theorem follows_key (hrange : 2 ^ 32 ≤ range) (hslice : IsSlice range blob) :
    Follows blob (parseKey range blob) PivState.readKey := by
  have hsize : blob.length < range / 2 := hslice
  intro cursor hcursor
  unfold parseKey
  rw [plus_ok (by omega), ok_bind, plus_ok (by omega), ok_bind]
  by_cases hheader : blob.length < cursor + 2 + 2
  · -- a key has more bytes than there are
    have hnone : PivState.readKey (blob.drop cursor) = none := by
      refine Option.eq_none_iff_forall_ne_some.mpr fun found hfound => ?_
      have hbytes := congrArg List.length (inverts_key _ found.1 found.2 hfound)
      rw [List.length_append, length_serializeKey, List.length_drop] at hbytes
      omega
    rw [room_error hheader, error_bind, hnone]
    exact .rejected
  · obtain ⟨slotId, hslotId, hslotFront⟩ := exists_byte blob (i := cursor) (by omega)
    obtain ⟨algId, halgId, halgFront⟩ := exists_byte blob (i := cursor + 1) (by omega)
    obtain ⟨privLen, hprivLt, hprivLen, hprivFront⟩ :=
      exists_word hslice (i := cursor + 2) (by omega)
    rw [room_ok (by omega), ok_bind, hslotId, ok_bind, plus_ok (by omega), ok_bind, halgId, ok_bind]
    simp only [PivState.readKey, PivState.readSlot, Blob.run_bind, hslotFront, Option.bind_some]
    cases PivSlot.ofId slotId with
    | none => exact .rejected
    | some slot =>
        simp only [known, Option.elim_some, ok_bind, Blob.run_pure, Option.bind_some]
        simp only [ResidentKey.read, ResidentKey.readAlg, Blob.run_bind, halgFront,
          Option.bind_some]
        cases KeyAlg.ofId algId with
        | none => exact .rejected
        | some alg =>
            simp only [Option.elim_some, ok_bind, Blob.run_pure, Option.bind_some, hprivLen]
            rw [plus_ok (by omega), ok_bind, plus_ok (by omega), ok_bind]
            simp only [Blob.prefixed, Blob.run_bind, hprivFront, Option.bind_some]
            by_cases hpub : blob.length < cursor + 2 + 2 + privLen + 2
            · rw [room_error hpub, error_bind]
              by_cases hpriv : blob.length < cursor + 2 + 2 + privLen
              · rw [take_none (by omega) hpriv]
                exact .rejected
              · obtain ⟨privKey, -, -, hprivTaken⟩ :=
                  exists_slice blob (i := cursor + 2 + 2) (n := privLen) (by omega)
                simp only [hprivTaken, Option.bind_some]
                rw [number_none (by omega) hpub]
                exact .rejected
            · obtain ⟨privKey, hprivLength, hpriv, hprivTaken⟩ :=
                exists_slice blob (i := cursor + 2 + 2) (n := privLen) (by omega)
              obtain ⟨pubLen, hpubLt, hpubLen, hpubFront⟩ :=
                exists_word hslice (i := cursor + 2 + 2 + privLen) (by omega)
              rw [room_ok (by omega), ok_bind, hpriv, ok_bind, hpubLen, ok_bind,
                plus_ok (by omega), ok_bind]
              simp only [hprivTaken, hpubFront, Option.bind_some]
              by_cases hbehind : blob.length < cursor + 2 + 2 + privLen + 2 + pubLen
              · rw [room_error hbehind, error_bind, take_none (by omega) hbehind]
                exact .rejected
              · obtain ⟨pubKey, hpubLength, hpub, hpubTaken⟩ :=
                  exists_slice blob (i := cursor + 2 + 2 + privLen + 2) (n := pubLen)
                    (by omega)
                rw [room_ok (by omega), ok_bind, hpub, ok_bind]
                simp only [hpubTaken, Option.bind_some, ResidentKey.build]
                split
                · exact .found _ (by omega)
                · exact .rejected

theorem length_serializeCert (cert : PivCert) :
    (PivState.serializeCert cert).length = 3 + cert.der.length := by
  unfold PivState.serializeCert
  simp only [List.length_append, List.length_singleton, Bytes.length_beBytes]
  omega

/-- The length is checked in front of the certificate, or the certificate behind it. -/
theorem prefixed_buildCert {bytes rest : Bytes} (slot : PivSlot) {n : Nat}
    (h : Blob.number 2 bytes = some (n, rest)) (hn : ¬(0 < n ∧ n ≤ 2048)) :
    (Blob.prefixed 2 >>= PivState.buildCert slot) bytes = none := by
  simp only [Blob.prefixed, Blob.run_bind, h, Option.bind_some]
  cases htake : Blob.take n rest with
  | none => rfl
  | some taken =>
      obtain ⟨-, hlen⟩ := Blob.take_eq_some htake
      rw [Option.bind_some, PivState.buildCert, dif_neg (by rwa [hlen])]
      rfl

theorem follows_cert (hrange : 2 ^ 32 ≤ range) (hslice : IsSlice range blob) :
    Follows blob (parseCert range blob) PivState.readCert := by
  have hsize : blob.length < range / 2 := hslice
  intro cursor hcursor
  unfold parseCert
  rw [plus_ok (by omega), ok_bind, plus_ok (by omega), ok_bind]
  by_cases hheader : blob.length < cursor + 1 + 2
  · -- a certificate has more bytes than there are
    have hnone : PivState.readCert (blob.drop cursor) = none := by
      refine Option.eq_none_iff_forall_ne_some.mpr fun found hfound => ?_
      have hbytes := congrArg List.length (inverts_cert _ found.1 found.2 hfound)
      rw [List.length_append, length_serializeCert, List.length_drop] at hbytes
      omega
    rw [room_error hheader, error_bind, hnone]
    exact .rejected
  · obtain ⟨slotId, hslotId, hslotFront⟩ := exists_byte blob (i := cursor) (by omega)
    obtain ⟨certLen, hcertLt, hcertLen, hcertFront⟩ :=
      exists_word hslice (i := cursor + 1) (by omega)
    rw [room_ok (by omega), ok_bind, hslotId, ok_bind]
    simp only [PivState.readCert, PivState.readSlot, Blob.run_bind, hslotFront, Option.bind_some]
    cases PivSlot.ofId slotId with
    | none => exact .rejected
    | some slot =>
        simp only [known, Option.elim_some, ok_bind, Blob.run_pure, Option.bind_some, hcertLen]
        by_cases hlen : 0 < certLen ∧ certLen ≤ 2048
        · rw [accept_ok hlen, ok_bind, plus_ok (by omega), ok_bind]
          simp only [Blob.prefixed, Blob.run_bind, hcertFront, Option.bind_some]
          by_cases hbehind : blob.length < cursor + 1 + 2 + certLen
          · rw [room_error hbehind, error_bind, take_none (by omega) hbehind]
            exact .rejected
          · obtain ⟨der, hderLength, hder, hderTaken⟩ :=
              exists_slice blob (i := cursor + 1 + 2) (n := certLen) (by omega)
            rw [room_ok (by omega), ok_bind, hder, ok_bind]
            simp only [hderTaken, Option.bind_some, PivState.buildCert]
            split
            · exact .found _ (by omega)
            · exact .rejected
        · have hnone := prefixed_buildCert slot hcertFront hlen
          rw [Blob.run_bind] at hnone
          rw [accept_error hlen, error_bind, hnone]
          exact .rejected

/-! ## States -/

/-- The PIN, its retries and the number of keys. -/
def readHeader : Blob.Reader (Bytes × UInt8 × Nat) := do
  let pin ← Blob.prefixed 1
  let retries ← Blob.byte
  let numKeys ← Blob.number 1
  pure (pin, retries, numKeys)

/-- What `parse_state` checks of a PIN and its retries. -/
def PinOk (pin : Bytes) (retries : UInt8) : Prop :=
  (6 ≤ pin.length ∧ pin.length ≤ 8) ∧ retries ≤ 3

/-- How many bytes there are, where a header is read. -/
theorem length_of_header {bytes rest pin : Bytes} {retries : UInt8} {n : Nat}
    (h : readHeader bytes = some ((pin, retries, n), rest)) :
    bytes.length = 3 + pin.length + rest.length := by
  obtain ⟨taken, atRetries, hpin, h⟩ := Blob.bind_eq_some h
  obtain ⟨b, atCount, hretries, h⟩ := Blob.bind_eq_some h
  obtain ⟨count, behind, hcount, h⟩ := Blob.bind_eq_some h
  cases h
  rw [Blob.inverts_prefixed 1 _ _ _ hpin, Blob.inverts_byte _ _ _ hretries,
    Blob.inverts_number 1 _ _ _ hcount]
  simp only [List.length_append, List.length_singleton, Bytes.length_beBytes]
  omega

/-- The PIN that is read has the length that the byte in front of it says. -/
theorem pin_of_header {bytes behindLen rest pin : Bytes} {pinLen n : Nat} {retries : UInt8}
    (hlen : Blob.number 1 bytes = some (pinLen, behindLen))
    (h : readHeader bytes = some ((pin, retries, n), rest)) : pin.length = pinLen := by
  obtain ⟨taken, atRetries, hpin, h⟩ := Blob.bind_eq_some h
  obtain ⟨b, atCount, hretries, h⟩ := Blob.bind_eq_some h
  obtain ⟨count, behind, hcount, h⟩ := Blob.bind_eq_some h
  cases h
  rw [Blob.prefixed, Blob.run_bind, hlen] at hpin
  exact (Blob.take_eq_some hpin).2

/-- The checks of the header reject what is read as a PIN or retries that no state has. -/
theorem header_cases (hrange : 2 ^ 32 ≤ range) (hslice : IsSlice range blob) {version : UInt8}
    (hversion : byteAt blob 0 = .ok version) (least : Nat) (hleast : 2 ≤ least ∧ least ≤ 9) :
    (∃ pin retries n, ∃ cursor ≤ blob.length,
      parseHeader range blob least version = .ok (pin, retries, n, cursor) ∧
        readHeader (blob.drop 1) = some ((pin, retries, n), blob.drop cursor)) ∨
    (parseHeader range blob least version = .error .rejected ∧
      ∀ pin retries n rest, readHeader (blob.drop 1) = some ((pin, retries, n), rest) →
        ¬PinOk pin retries) := by
  have hsize : blob.length < range / 2 := hslice
  unfold parseHeader
  by_cases hroom : blob.length < least
  · refine .inr ⟨by rw [room_error hroom, error_bind], ?_⟩
    intro pin retries n rest hread hok
    have hlength := length_of_header hread
    have hpin := hok.1.1
    rw [List.length_drop] at hlength
    omega
  · obtain ⟨pinLen, hpinLen, hpinLenFront⟩ := exists_byte blob (i := 1) (by omega)
    have hcount := number1_of_byte hpinLenFront
    have hlt := pinLen.toNat_lt
    rw [room_ok (by omega), ok_bind, hversion, ok_bind, accept_ok rfl, ok_bind, hpinLen, ok_bind]
    by_cases hbounds : 6 ≤ pinLen.toNat ∧ pinLen.toNat ≤ 8
    · rw [accept_ok hbounds, ok_bind, plus_ok (by omega), ok_bind, plus_ok (by omega), ok_bind]
      by_cases hbehind : blob.length < 2 + pinLen.toNat + 2
      · refine .inr ⟨by rw [room_error hbehind, error_bind], ?_⟩
        intro pin retries n rest hread _
        have hlength := length_of_header hread
        have hpin := pin_of_header hcount hread
        rw [List.length_drop] at hlength
        omega
      · obtain ⟨pin, -, hpin, hpinFront⟩ :=
          exists_slice blob (i := 2) (n := pinLen.toNat) (by omega)
        obtain ⟨retries, hretries, hretriesFront⟩ :=
          exists_byte blob (i := 2 + pinLen.toNat) (by omega)
        obtain ⟨numKeys, hnumKeys, hnumKeysFront⟩ :=
          exists_byte blob (i := 2 + pinLen.toNat + 1) (by omega)
        have hread : readHeader (blob.drop 1) =
            some ((pin, retries, numKeys.toNat), blob.drop (2 + pinLen.toNat + 2)) := by
          simp only [readHeader, Blob.prefixed, Blob.run_bind, hcount, hpinFront, hretriesFront,
            number1_of_byte hnumKeysFront, Option.bind_some, Blob.run_pure]
        rw [room_ok (by omega), ok_bind, hpin, ok_bind, hretries, ok_bind]
        by_cases hmax : retries ≤ 3
        · refine .inl ⟨pin, retries, numKeys.toNat, 2 + pinLen.toNat + 2, by omega, ?_, hread⟩
          rw [accept_ok hmax, ok_bind, plus_ok (by omega), ok_bind, hnumKeys, ok_bind]
          rfl
        · refine .inr ⟨by rw [accept_error hmax, error_bind], ?_⟩
          intro pin' retries' n rest hread' hok
          rw [hread] at hread'
          cases hread'
          exact hmax hok.2
    · refine .inr ⟨by rw [accept_error hbounds, error_bind], ?_⟩
      intro pin retries n rest hread hok
      have hpin := pin_of_header hcount hread
      exact hbounds (hpin ▸ hok.1)

theorem build_eq_some {pin bytes rest : Bytes} {retries : UInt8} {keys : List PivKey}
    {certs : List PivCert} {state : PivState}
    (h : PivState.build pin retries keys certs bytes = some (state, rest)) :
    (pin = state.pin ∧ retries = state.retries ∧ keys = state.keys ∧ certs = state.certs) ∧
      bytes = rest := by
  unfold PivState.build at h
  split at h
  · cases h
    exact ⟨⟨rfl, rfl, rfl, rfl⟩, rfl⟩
  · cases h

/-- The state around its parts, where they fill the blob. -/
theorem finish_eq {pin : Bytes} {retries : UInt8} {keys : List PivKey} {certs : List PivCert}
    {cursor : Nat} (hcursor : cursor ≤ blob.length) :
    (accept (cursor = blob.length) >>= fun _ => finish pin retries keys certs) =
      known (Blob.whole (PivState.build pin retries keys certs) (blob.drop cursor)) := by
  by_cases hend : cursor = blob.length
  · rw [accept_ok hend, ok_bind, hend, List.drop_length]
    unfold finish Blob.whole PivState.build
    split <;> rfl
  · rw [accept_error hend, error_bind]
    cases hwhole : Blob.whole (PivState.build pin retries keys certs) (blob.drop cursor) with
    | none => rfl
    | some state =>
        obtain ⟨-, hnil⟩ := build_eq_some (Blob.read_of_whole hwhole)
        rw [List.drop_eq_nil_iff] at hnil
        omega

theorem readV2_eq : PivState.readV2 = readHeader >>= fun header =>
    Blob.many PivState.readKey header.2.2 >>= fun keys =>
      PivState.build header.1 header.2.1 keys [] := by
  simp only [PivState.readV2, readHeader, bind_assoc, pure_bind]

theorem readV3_eq : PivState.readV3 = readHeader >>= fun header =>
    Blob.many PivState.readKey header.2.2 >>= fun keys =>
      Blob.number 1 >>= fun numCerts =>
        Blob.many PivState.readCert numCerts >>= fun certs =>
          PivState.build header.1 header.2.1 keys certs := by
  simp only [PivState.readV3, readHeader, bind_assoc, pure_bind]

/-- Nothing is built around a PIN or retries that no state has. -/
theorem whole_header_none {k : Bytes × UInt8 × Nat → Blob.Reader PivState} {bytes : Bytes}
    (hbuild : ∀ header bytes state rest, k header bytes = some (state, rest) →
      header.1 = state.pin ∧ header.2.1 = state.retries)
    (h : ∀ pin retries n rest, readHeader bytes = some ((pin, retries, n), rest) →
      ¬PinOk pin retries) : Blob.whole (readHeader >>= k) bytes = none := by
  cases hwhole : Blob.whole (readHeader >>= k) bytes with
  | none => rfl
  | some state =>
      obtain ⟨header, rest, hheader, hk⟩ := Blob.bind_eq_some (Blob.read_of_whole hwhole)
      obtain ⟨hpin, hretries⟩ := hbuild header rest state [] hk
      refine absurd ⟨?_, ?_⟩ (h header.1 header.2.1 header.2.2 rest hheader)
      · rw [hpin]
        exact state.pin_ok
      · rw [hretries]
        exact state.retries_ok

theorem parseV2_eq (hrange : 2 ^ 32 ≤ range) (hslice : IsSlice range blob)
    (hversion : byteAt blob 0 = .ok 2) :
    parseV2 range blob = known (Blob.whole PivState.readV2 (blob.drop 1)) := by
  rw [readV2_eq]
  unfold parseV2
  obtain ⟨pin, retries, n, cursor, hcursor, hheader, hread⟩ | ⟨hheader, hnone⟩ :=
    header_cases hrange hslice hversion 4 (by decide)
  · rw [hheader, ok_bind, Blob.whole_bind hread]
    refine (follows_many (follows_key hrange hslice) n cursor hcursor).whole ?_
    intro keys behind hbehind
    exact finish_eq hbehind
  · rw [hheader, error_bind, whole_header_none _ hnone]
    · rfl
    · intro header bytes state rest h
      obtain ⟨keys, mid, -, h⟩ := Blob.bind_eq_some h
      obtain ⟨⟨hpin, hretries, -, -⟩, -⟩ := build_eq_some h
      exact ⟨hpin, hretries⟩

theorem parseV3_eq (hrange : 2 ^ 32 ≤ range) (hslice : IsSlice range blob)
    (hversion : byteAt blob 0 = .ok 3) :
    parseV3 range blob = known (Blob.whole PivState.readV3 (blob.drop 1)) := by
  have hsize : blob.length < range / 2 := hslice
  rw [readV3_eq]
  unfold parseV3
  obtain ⟨pin, retries, n, cursor, hcursor, hheader, hread⟩ | ⟨hheader, hnone⟩ :=
    header_cases hrange hslice hversion 5 (by decide)
  · rw [hheader, ok_bind, Blob.whole_bind hread]
    refine (follows_many (follows_key hrange hslice) n cursor hcursor).whole ?_
    intro keys countAt hcountAt
    show (plus range countAt 1 >>= _) = _
    rw [plus_ok (by omega), ok_bind]
    by_cases hcount : blob.length < countAt + 1
    · rw [room_error hcount, error_bind, Blob.whole_bind_none (number_none hcountAt hcount)]
      rfl
    · obtain ⟨numCerts, hnumCerts, hnumCertsFront⟩ := exists_byte blob (i := countAt) (by omega)
      rw [room_ok (by omega), ok_bind, hnumCerts, ok_bind,
        Blob.whole_bind (number1_of_byte hnumCertsFront)]
      refine (follows_many (follows_cert hrange hslice) _ (countAt + 1) (by omega)).whole ?_
      intro certs behind hbehind
      exact finish_eq hbehind
  · rw [hheader, error_bind, whole_header_none _ hnone]
    · rfl
    · intro header bytes state rest h
      obtain ⟨keys, mid, -, h⟩ := Blob.bind_eq_some h
      obtain ⟨numCerts, mid', -, h⟩ := Blob.bind_eq_some h
      obtain ⟨certs, mid'', -, h⟩ := Blob.bind_eq_some h
      obtain ⟨⟨hpin, hretries, -, -⟩, -⟩ := build_eq_some h
      exact ⟨hpin, hretries⟩

/-- Only the PIN and its retries are read as a state of version 1. -/
theorem eq_of_readV1 {bytes rest : Bytes} {state : PivState}
    (h : PivState.readV1 bytes = some (state, rest)) :
    bytes = Bytes.beBytes 1 state.pin.length ++ state.pin ++ ([state.retries] ++ rest) ∧
      state.keys = [] ∧ state.certs = [] := by
  obtain ⟨pin, atRetries, hpin, h⟩ := Blob.bind_eq_some h
  obtain ⟨retries, behind, hretries, h⟩ := Blob.bind_eq_some h
  obtain ⟨⟨rfl, rfl, hkeys, hcerts⟩, rfl⟩ := build_eq_some h
  rw [Blob.inverts_prefixed 1 _ _ _ hpin, Blob.inverts_byte _ _ _ hretries]
  exact ⟨rfl, hkeys.symm, hcerts.symm⟩

theorem parseV1_eq (hrange : 2 ^ 32 ≤ range) (hslice : IsSlice range blob)
    (hversion : byteAt blob 0 = .ok 1) :
    parseV1 range blob = known (Blob.whole PivState.readV1 (blob.drop 1)) := by
  have hsize : blob.length < range / 2 := hslice
  -- what is accepted has a PIN of six to eight bytes, and one byte behind it
  have hlength {state : PivState}
      (hwhole : Blob.whole PivState.readV1 (blob.drop 1) = some state) :
      blob.length = 3 + state.pin.length := by
    have hbytes := congrArg List.length (eq_of_readV1 (Blob.read_of_whole hwhole)).1
    simp only [List.length_drop, List.length_append, Bytes.length_beBytes, List.length_singleton,
      List.length_nil] at hbytes
    have hpin := state.pin_ok
    omega
  unfold parseV1
  by_cases hroom : blob.length < 3
  · rw [room_error hroom, error_bind]
    cases hwhole : Blob.whole PivState.readV1 (blob.drop 1) with
    | none => rfl
    | some state =>
        have hstate := hlength hwhole
        omega
  · obtain ⟨pinLen, hpinLen, hpinLenFront⟩ := exists_byte blob (i := 1) (by omega)
    have hcount := number1_of_byte hpinLenFront
    have hlt := pinLen.toNat_lt
    rw [room_ok (by omega), ok_bind, hversion, ok_bind, accept_ok rfl, ok_bind, hpinLen, ok_bind]
    by_cases hfits : (6 ≤ pinLen.toNat ∧ pinLen.toNat ≤ 8) ∧ blob.length = 2 + pinLen.toNat + 1
    · obtain ⟨pin, hpinLength, hpin, hpinFront⟩ :=
        exists_slice blob (i := 2) (n := pinLen.toNat) (by omega)
      obtain ⟨retries, hretries, hretriesFront⟩ :=
        exists_byte blob (i := 2 + pinLen.toNat) (by omega)
      have hread : Blob.whole PivState.readV1 (blob.drop 1) =
          Blob.whole (PivState.build pin retries [] []) [] := by
        have hprefixed : Blob.prefixed 1 (blob.drop 1) =
            some (pin, blob.drop (2 + pinLen.toNat)) := by
          rw [Blob.prefixed, Blob.run_bind, hcount, Option.bind_some, hpinFront]
        rw [PivState.readV1, Blob.whole_bind hprefixed, Blob.whole_bind hretriesFront, ← hfits.2,
          List.drop_length]
      rw [accept_ok hfits.1, ok_bind, plus_ok (by omega), ok_bind, plus_ok (by omega), ok_bind,
        accept_ok hfits.2, ok_bind, hpin, ok_bind, hretries, ok_bind, hread]
      unfold finish Blob.whole PivState.build
      by_cases hmax : retries ≤ 3
      · rw [accept_ok hmax, ok_bind]
        split <;> rfl
      · rw [accept_error hmax, error_bind, dif_neg fun h => hmax h.2.1]
        rfl
    · have hnone : Blob.whole PivState.readV1 (blob.drop 1) = none := by
        refine Option.eq_none_iff_forall_ne_some.mpr fun state hwhole => hfits ?_
        have hstate := hlength hwhole
        have hpin := state.pin_ok
        have hnumber := Blob.reads_number (w := 1) (n := state.pin.length) (by omega)
        have hbytes := (eq_of_readV1 (Blob.read_of_whole hwhole)).1
        rw [hbytes, List.append_assoc, hnumber] at hcount
        have hsame := congrArg Prod.fst (Option.some.inj hcount)
        simp only at hsame
        omega
      rw [hnone]
      by_cases hbounds : 6 ≤ pinLen.toNat ∧ pinLen.toNat ≤ 8
      · rw [accept_ok hbounds, ok_bind, plus_ok (by omega), ok_bind, plus_ok (by omega), ok_bind,
          accept_error fun h => hfits ⟨hbounds, h⟩, error_bind]
        rfl
      · rw [accept_error hbounds, error_bind]
        rfl

/-- **The parser of the source finds what `PivState.parse` finds.** -/
theorem parse_eq (hrange : 2 ^ 32 ≤ range) (hslice : IsSlice range blob) :
    parse range blob = known (PivState.parse blob) := by
  cases blob with
  | nil => rfl
  | cons version body =>
      simp only [parse, PivState.parse]
      split
      · next h => exact parseV1_eq hrange hslice (h ▸ rfl)
      · split
        · next h => exact parseV2_eq hrange hslice (h ▸ rfl)
        · split
          · next h => exact parseV3_eq hrange hslice (h ▸ rfl)
          · rfl

theorem parseState_eq (hrange : 2 ^ 32 ≤ range) (hslice : IsSlice range blob) :
    parseState range blob = .ok (PivState.parse blob) := by
  unfold parseState
  rw [parse_eq hrange hslice]
  cases PivState.parse blob <;> rfl

end

end PivBlob

end OpenKey
