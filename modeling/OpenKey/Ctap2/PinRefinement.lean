import OpenKey.Ctap2.PinSession
import Mathlib.GroupTheory.Perm.List

/-!
# Sessions with the PIN

**A session refines the object (`session_refines`).** Whatever a platform asks for over the wire,
in any order and with power cycles in between, is answered as the object answers it, and leaves the
authenticator at the state the object is left in. So it is with any command in between that leaves
the PIN alone (`besidePin`): not with Reset and AuthenticatorConfig, which act on the PIN and on the
flag that forces its change, and not with the ClientPIN requests of another platform.

**A grant is worth its scope.** What the platform authenticates under the token it holds is accepted
for exactly the protocol, the permissions and the relying party of the object's grant.

The induction is over the turns of a session. It carries that no change of the PIN is forced, that
the storage agrees with its medium, and that the token of the device, if there is one, is the one
that the platform has decrypted last (`Ready`).
-/

namespace OpenKey

open Prog (Keeps KeepsAt)

set_option autoImplicit false

namespace Auth

variable {β : Type} [StorageBackend β] [LawfulBackend β] {build : Build}

/-! ## What a session does not touch -/

/-- What commands beside the configuration leave as it is. -/
structure Steady (a b : Auth β) : Prop where
  crypto : b.crypto = a.crypto
  capabilities : b.capabilities = a.capabilities
  forced : b.storage.isForceChangePin = a.storage.isForceChangePin
  synced : a.storage.Synced → b.storage.Synced
  backend : b.storage.backend.isSome = a.storage.backend.isSome

theorem Steady.of_core {a b : Auth β} (h : b.core = a.core) : Steady a b := by
  have hstorage : b.storage = a.storage := congrArg Core.storage h
  refine ⟨congrArg Core.crypto h, congrArg Core.capabilities h, ?_, ?_, ?_⟩
  all_goals rw [hstorage]
  exact id

theorem Steady.trans {a b c : Auth β} (h₁ : Steady a b) (h₂ : Steady b c) : Steady a c where
  crypto := h₂.crypto.trans h₁.crypto
  capabilities := h₂.capabilities.trans h₁.capabilities
  forced := h₂.forced.trans h₁.forced
  synced := h₂.synced ∘ h₁.synced
  backend := h₂.backend.trans h₁.backend

theorem steady_of_moves {K : Set Kind} (hK : Kind.save cfgForceChangePinKey ∉ K) {a b : Auth β}
    (h : (Moves K).rel a b) : Steady a b := by
  have hconstant : b.core.crypto = a.core.crypto ∧ b.core.capabilities = a.core.capabilities := by
    refine moves_invariant (P := fun c => c.crypto = a.core.crypto ∧
      c.capabilities = a.core.capabilities) ?_ h ⟨rfl, rfl⟩
    intro c c' hmove hc
    cases hmove <;> exact hc
  obtain ⟨hsynced, -, hbackend⟩ := kept_of_moves h
  refine ⟨hconstant.1, hconstant.2, ?_, hsynced, hbackend⟩
  exact congrArg Option.isSome (value_of_moves systemKey_forceChangePin hK h)

/-- A command beside the PIN leaves the token and the object alone. -/
theorem beside_step {cmd : UInt8} (data : Bytes)
    (hbeside : (Ctap2Command.fromU8 cmd).besidePin = true) (a : Auth β) :
    Steady a (a.step build (.command cmd data)) ∧
      (a.step build (.command cmd data)).pinUvAuthToken = a.pinUvAuthToken ∧
      (a.step build (.command cmd data)).pinObject = a.pinObject := by
  have hreset : Ctap2Command.fromU8 cmd ≠ .reset := by
    intro h
    rw [h] at hbeside
    cases hbeside
  have hmoves := moves_step build data hreset a
  generalize hkinds : commandKinds (Ctap2Command.fromU8 cmd) = K at hmoves
  have hforbidden : Kind.save cfgForceChangePinKey ∉ K ∧ Kind.save pinStorageKey ∉ K ∧
      Kind.save pinRetriesKey ∉ K ∧ Kind.issue ∉ K ∧ Kind.dropToken ∉ K ∧ Kind.fail ∉ K := by
    rw [← hkinds]
    generalize Ctap2Command.fromU8 cmd = command at hbeside
    cases command with
    | reset | clientPin | authenticatorConfig => cases hbeside
    | _ =>
        simp [commandKinds, makeCredentialKinds, assertionKinds, cfgForceChangePinKey,
          cfgEpPendingKey, signCounterStorageKey, pinStorageKey, pinRetriesKey]
  obtain ⟨hforce, hpin, hretries, hissue, hdrop, hfail⟩ := hforbidden
  have hvolatile : (a.step build (.command cmd data)).core.token = a.core.token ∧
      (a.step build (.command cmd data)).core.failures = a.core.failures := by
    refine moves_invariant (P := fun c => c.token = a.core.token ∧
      c.failures = a.core.failures) ?_ hmoves ⟨rfl, rfl⟩
    intro c c' hmove hc
    cases hmove with
    | issue hK => exact absurd hK hissue
    | dropToken hK => exact absurd hK hdrop
    | restore hK => exact absurd hK hretries
    | fail hK => exact absurd hK hfail
    | enumerate | records | save | compare => exact hc
  have htoken : (a.step build (.command cmd data)).pinUvAuthToken = a.pinUvAuthToken :=
    hvolatile.1
  refine ⟨steady_of_moves hforce hmoves, htoken, ?_⟩
  have hstored : (a.step build (.command cmd data)).storedPin = a.storedPin :=
    value_of_moves systemKey_pin hpin hmoves
  have hleft : (a.step build (.command cmd data)).storage.readRetries = a.storage.readRetries :=
    readDecimal_congr (value_of_moves systemKey_retries hretries hmoves) _ _
  have hfailures : (a.step build (.command cmd data)).pinFailuresSinceReset =
      a.pinFailuresSinceReset := hvolatile.2
  simp only [pinObject, hstored, hleft, hfailures, htoken]

/-- A power cycle is the one of the object. -/
theorem power_step {a : Auth β} (hsynced : a.storage.Synced) :
    (a.step build .powerCycle).pinObject =
        a.pinObject.power a.storage.backend.isSome ∧
      (a.storage.isForceChangePin = false →
        (a.step build .powerCycle).storage.isForceChangePin = false) := by
  cases hb : a.storage.backend with
  | none =>
      have hnone : ∀ key, (a.step build .powerCycle).storage.value key = none :=
        fun key => value_reopen_none build hb key
      constructor
      · have hretries : (a.step build .powerCycle).storage.readRetries = pinMaxRetries := by
          rw [StorageEngine.readRetries, StorageEngine.readDecimal, hnone]
          rfl
        simp only [pinObject, storedPin, hnone, hretries]
        rfl
      · intro _
        rw [StorageEngine.isForceChangePin, hnone]
        rfl
  | some b =>
      have hsome : a.storage.backend.isSome = true := by
        rw [hb]
        rfl
      have hvalue : ∀ {key}, SystemKey key →
          (a.step build .powerCycle).storage.value key = a.storage.value key :=
        fun hkey => value_reopen build hsome hsynced hkey
      constructor
      · have hretries : (a.step build .powerCycle).storage.readRetries = a.storage.readRetries :=
          readDecimal_congr (hvalue systemKey_retries) _ _
        simp only [pinObject, storedPin, hvalue systemKey_pin, hretries]
        rfl
      · intro hfree
        exact (congrArg Option.isSome (hvalue systemKey_forceChangePin)).trans hfree

end Auth

/-! ## The refinement -/

/-- What a session asks of the algorithms. -/
structure ProtocolSound (prims : Primitives) : Prop where
  ecdh : EcdhSound prims
  hkdf : HkdfSound prims
  aes : AesSound prims

namespace Session

variable {β : Type} [StorageBackend β] [LawfulBackend β] {build : Build}

/-- No change of the PIN is forced, and the platform holds the token of the device. -/
structure Ready (s : Session β) : Prop where
  free : s.device.storage.isForceChangePin = false
  synced : s.device.storage.Synced
  held : ∀ state, s.device.pinUvAuthToken = some state → s.token = some state.token ∧
    ∃ protocol : PinUvProtocol, state.protocol = protocol.version
  length : ∀ token, s.token = some token → token.length = 32

theorem Ready.keeps {s : Session β} (hs : s.Ready) {a : Auth β} (hsteady : Auth.Steady s.device a)
    (htoken : a.pinUvAuthToken = s.device.pinUvAuthToken) : Ready ⟨a, s.token⟩ where
  free := hsteady.forced.trans hs.free
  synced := hsteady.synced hs.synced
  held state hstate := hs.held state (htoken.symm.trans hstate)
  length := hs.length

theorem Ready.delivered {s : Session β} (hs : s.Ready) {platform : TestPlatform}
    {r : ClientPinResponse} {b : Auth β} (hsteady : Auth.Steady s.device b)
    (h : Auth.HandsOver platform r b) :
    Ready ⟨b, (r.pinUvAuthToken.bind (platform.decrypt s.device.crypto.prims)).or s.token⟩ := by
  unfold Auth.HandsOver at h
  cases hr : r.pinUvAuthToken with
  | none =>
      rw [hr] at h
      refine ⟨hsteady.forced.trans hs.free, hsteady.synced hs.synced, ?_, hs.length⟩
      intro state hstate
      rw [show b.pinUvAuthToken = none from h] at hstate
      cases hstate
  | some encrypted =>
      rw [hr] at h
      obtain ⟨token, permissions, rpId, hdecrypt, hlength, htoken⟩ := h
      rw [hsteady.crypto] at hdecrypt
      refine ⟨hsteady.forced.trans hs.free, hsteady.synced hs.synced, ?_, ?_⟩
      · intro state hstate
        rw [htoken] at hstate
        cases hstate
        rw [Option.bind_some, hdecrypt]
        exact ⟨rfl, platform.protocol, rfl⟩
      · rw [Option.bind_some, hdecrypt]
        rintro _ ⟨⟩
        exact hlength

/-- One operation goes as on the object. -/
theorem operate_step {s : Session β} (hs : s.Ready) (hcbor : ReadsRequests build.cbor)
    (hsound : ProtocolSound s.device.crypto.prims) (protocol : PinUvProtocol)
    (key iv iv' : Entropy) (op : PinOp) :
    let after := s.operate build protocol key iv iv' op
    let ideal := op.ideal (Auth.pinHash s.device.crypto) s.device.capabilities.options
      protocol.version s.device.pinObject
    after.1 = some ideal.1 ∧ after.2.device.pinObject = ideal.2 ∧ after.2.Ready ∧
      Auth.Steady s.device after.2.device := by
  intro after ideal
  obtain ⟨announced, platform, a, hask, hrefresh, rfl, hcore, hagreed⟩ :=
    Auth.refreshAgreement_agrees hsound.ecdh hsound.hkdf protocol key
  have hcrypto : a.crypto = s.device.crypto := congrArg Core.crypto hcore
  have hcapabilities : a.capabilities = s.device.capabilities := congrArg Core.capabilities hcore
  have hobject := Auth.pinObject_of_core hcore
  have hfree : a.storage.isForceChangePin = false :=
    (Auth.Steady.of_core hcore).forced.trans hs.free
  have haes : AesSound a.crypto.prims := hcrypto ▸ hsound.aes
  obtain ⟨request, hrequest, hfits, hcarried, hanswers⟩ :=
    Auth.realises_operate build.cbor haes hagreed hfree iv iv' op
  rw [hcrypto, hcapabilities, hobject] at hanswers
  have hasked : (Auth.send build (TestPlatform.askAgreement platform.protocol)).run s.device =
      (.ok announced, a) :=
    (Auth.run_send (carried_askAgreement _) (hcbor _ (fits_askAgreement _)) s.device).trans hask
  have hsteady : Auth.Steady s.device ((Auth.send build request).run a).2 :=
    (Auth.Steady.of_core hcore).trans (Auth.steady_of_moves
      (by simp [Auth.clientPinKinds, cfgForceChangePinKey, pinStorageKey, pinRetriesKey,
        uvRetriesKey]) (Auth.moves_handleClientPin build _ subset_rfl a))
  have hsent := Auth.run_send hcarried (hcbor _ hfits) a
  rw [hcrypto] at hrequest
  obtain ⟨hafterObject, hrefused, hgranted⟩ := hanswers
  cases hrun : (Auth.clientPinSubCommand request).run a with
  | mk result b =>
      rw [hrun] at hsent hafterObject hrefused hgranted
      rw [hsent] at hsteady
      cases hideal : ideal.1 with
      | error error =>
          obtain ⟨rfl, htoken⟩ := hrefused error hideal
          have hafter : after = (some (.error error), ⟨b, s.token⟩) := by
            simp only [after, operate, hasked, hrefresh, hrequest, hsent]
          rw [hafter]
          exact ⟨rfl, hafterObject, hs.keeps hsteady (htoken.trans (congrArg Core.token hcore)),
            hsteady⟩
      | ok _ =>
          obtain ⟨r, rfl, hhands⟩ := hgranted hideal
          have hafter : after = (some (.ok ()), ⟨b, (r.pinUvAuthToken.bind
              (platform.decrypt s.device.crypto.prims)).or s.token⟩) := by
            simp only [after, operate, hasked, hrefresh, hrequest, hsent]
          rw [hafter]
          exact ⟨rfl, hafterObject, hs.delivered hsteady hhands, hsteady⟩

/-- One turn goes as on the object. -/
theorem turn_step {s : Session β} (hs : s.Ready) (hcbor : ReadsRequests build.cbor)
    (hsound : ProtocolSound s.device.crypto.prims) (turn : Turn) :
    let after := s.turn build turn
    let ideal := s.device.pinObject.turn (Auth.pinHash s.device.crypto)
      s.device.capabilities.options s.device.storage.backend.isSome turn
    after.1 = ideal.1.map some ∧ after.2.device.pinObject = ideal.2 ∧ after.2.Ready ∧
      after.2.device.crypto = s.device.crypto ∧
      after.2.device.capabilities = s.device.capabilities ∧
      after.2.device.storage.backend.isSome = s.device.storage.backend.isSome := by
  cases turn with
  | operate protocol key iv iv' op =>
      obtain ⟨hresult, hobject, hready, hsteady⟩ :=
        operate_step hs hcbor hsound protocol key iv iv' op
      exact ⟨congrArg (fun result => [result]) hresult, hobject, hready, hsteady.crypto,
        hsteady.capabilities, hsteady.backend⟩
  | other cmd data hbeside =>
      obtain ⟨hsteady, htoken, hobject⟩ := @Auth.beside_step _ _ _ build _ data hbeside s.device
      exact ⟨rfl, hobject, hs.keeps hsteady htoken, hsteady.crypto, hsteady.capabilities,
        hsteady.backend⟩
  | powerCycle =>
      obtain ⟨hobject, hfree⟩ := @Auth.power_step _ _ _ build _ hs.synced
      have hbackend : (Auth.reopen build s.device.storage).backend = s.device.storage.backend :=
        Auth.backend_reopen build s.device.storage
      exact ⟨rfl, hobject, ⟨hfree hs.free, Auth.synced_reopen build s.device.storage, nofun,
        hs.length⟩, rfl, rfl, congrArg Option.isSome hbackend⟩

/-- A whole session goes as on the object. -/
theorem turns_step {s : Session β} (hs : s.Ready) (hcbor : ReadsRequests build.cbor)
    (hsound : ProtocolSound s.device.crypto.prims) (turns : List Turn) :
    let after := s.turns build turns
    let ideal := s.device.pinObject.turns (Auth.pinHash s.device.crypto)
      s.device.capabilities.options s.device.storage.backend.isSome turns
    after.1 = ideal.1.map some ∧ after.2.device.pinObject = ideal.2 ∧ after.2.Ready ∧
      after.2.device.crypto = s.device.crypto := by
  induction turns generalizing s with
  | nil => exact ⟨rfl, rfl, hs, rfl⟩
  | cons turn turns ih =>
      obtain ⟨hresults, hobject, hready, hcrypto, hcapabilities, hbackend⟩ :=
        turn_step hs hcbor hsound turn
      obtain ⟨hlater, hfinal, hreadyAfter, hsame⟩ := ih hready (hcrypto.symm ▸ hsound)
      rw [hobject, hcrypto, hcapabilities, hbackend] at hlater hfinal
      refine ⟨?_, hfinal, hreadyAfter, hsame.trans hcrypto⟩
      show (s.turn build turn).1 ++ _ = List.map some (_ ++ _)
      rw [List.map_append, hresults, hlater]

/-- What is authenticated under the token of the platform is accepted within the grant. -/
theorem Ready.authorises {s : Session β} (hs : s.Ready) {token : Bytes}
    (htoken : s.token = some token) (protocol : PinUvProtocol) (message : Bytes)
    (permission : UInt8) (rpId : Option String) :
    ∃ mac, protocol.authenticate s.device.crypto.prims token message = .ok mac ∧
      (Auth.verifyPinUvAuthForOperation s.device (some protocol.version) (some mac) message
        permission rpId = .ok true ↔
        s.device.pinObject.Allows protocol.version permission rpId) := by
  obtain ⟨mac, hmac⟩ := @PinUvProtocol.authenticate_total s.device.crypto.prims protocol token
    message (.inl (hs.length token htoken))
  refine ⟨mac, hmac, Auth.verifyPinUvAuthForOperation_true.trans ?_⟩
  constructor
  · rintro ⟨version, _, state, _, ⟨⟩, ⟨⟩, hstate, hversion, -, -, hpermission, hbound⟩
    refine ⟨⟨state.protocol, state.permissions, state.permissionsRpId⟩, ?_, hversion, hpermission,
      hbound⟩
    exact congrArg (Option.map _) hstate
  · rintro ⟨grant, hgrant, hversion, hpermission, hbound⟩
    obtain ⟨state, hstate, rfl⟩ := Option.map_eq_some_iff.mp hgrant
    obtain ⟨hheld, -⟩ := hs.held state hstate
    have hsame : state.token = token := Option.some.inj (hheld.symm.trans htoken)
    exact ⟨_, protocol, state, mac, rfl, rfl, hstate, hversion, protocol.new_version,
      hsame.symm ▸ hmac, hpermission, hbound⟩

/-- A session is a session with the object: the results are the object's results, the device ends
where the object ends, and the token of the platform is worth the object's grant. -/
theorem session_refines (start : Session β) (hready : start.Ready)
    (hcbor : ReadsRequests build.cbor) (hsound : ProtocolSound start.device.crypto.prims)
    (turns : List Turn) :
    let after := start.turns build turns
    let ideal := start.device.pinObject.turns (Auth.pinHash start.device.crypto)
      start.device.capabilities.options start.device.storage.backend.isSome turns
    after.1 = ideal.1.map some ∧ after.2.device.pinObject = ideal.2 ∧
      ∀ token, after.2.token = some token → ∀ (protocol : PinUvProtocol) message permission rpId,
        ∃ mac, protocol.authenticate start.device.crypto.prims token message = .ok mac ∧
          (Auth.verifyPinUvAuthForOperation after.2.device (some protocol.version) (some mac)
              message permission rpId = .ok true ↔
            ideal.2.Allows protocol.version permission rpId) := by
  obtain ⟨hresults, hobject, hreadyAfter, hcrypto⟩ := turns_step hready hcbor hsound turns
  refine ⟨hresults, hobject, ?_⟩
  intro token htoken protocol message permission rpId
  rw [← hobject, ← hcrypto]
  exact hreadyAfter.authorises htoken protocol message permission rpId

end Session

/-! ## A session -/

section Cbor

open Cbor (Reads)

variable {fuel : Nat}

theorem reads_natural {n : Nat} (hn : n < 2 ^ 64) :
    Reads (decodeValue (fuel + 1)) (.integer n) (encodeValue (.integer n)) := by
  intro rest
  have hhead := @Cbor.reads_head 0 n (by decide) hn rest
  rw [encodeValue, if_pos (Int.natCast_nonneg n), Int.toNat_natCast]
  simp only [decodeValue, hhead]

theorem reads_negative {n : Nat} (hn : n < 2 ^ 64) :
    Reads (decodeValue (fuel + 1)) (.integer (-1 - n)) (encodeValue (.integer (-1 - n))) := by
  intro rest
  have hneg : ¬(0 : Int) ≤ -1 - n := by omega
  have hback : (-1 - (-1 - (n : Int))).toNat = n := by omega
  have hhead := @Cbor.reads_head 1 n (by decide) hn rest
  rw [encodeValue, if_neg hneg, hback]
  simp only [decodeValue, hhead]

theorem reads_bytes {bytes : Bytes} (hlen : bytes.length < 2 ^ 64) :
    Reads (decodeValue (fuel + 1)) (.bytes bytes) (encodeValue (.bytes bytes)) := by
  intro rest
  have hhead := @Cbor.reads_head 2 bytes.length (by decide) hlen (bytes ++ rest)
  rw [encodeValue, List.append_assoc]
  simp [decodeValue, hhead]

theorem reads_textValue {text : String} (hlen : (utf8 text).length < 2 ^ 64) :
    Reads (decodeValue (fuel + 1)) (.text text) (encodeValue (.text text)) := by
  intro rest
  have hhead := @Cbor.reads_head 3 (utf8 text).length (by decide) hlen (utf8 text ++ rest)
  rw [encodeValue, Cbor.encodeText, List.append_assoc]
  simp [decodeValue, hhead, Cbor.takeText, ofUtf8_utf8]

theorem reads_null : Reads (decodeValue (fuel + 1)) .null (encodeValue .null) := fun _ => rfl

theorem encodeItems_eq (items : List Value) : encodeItems items = items.flatMap encodeValue := by
  induction items with
  | nil => rfl
  | cons item items ih => rw [encodeItems, ih, List.flatMap_cons]

theorem reads_arrayValue {items : List Value} (hlen : items.length < 2 ^ 64)
    (h : ∀ item ∈ items, Reads (decodeValue fuel) item (encodeValue item)) :
    Reads (decodeValue (fuel + 1)) (.array items) (encodeValue (.array items)) := by
  intro rest
  have hhead := @Cbor.reads_head 4 items.length (by decide) hlen
    (items.flatMap encodeValue ++ rest)
  rw [encodeValue, List.append_assoc, encodeItems_eq]
  simp only [decodeValue, hhead, Cbor.reads_many h rest, Option.map_some]

theorem encodeEntries_eq (entries : List (Value × Value)) :
    encodeEntries entries = entries.flatMap fun e => encodeValue e.1 ++ encodeValue e.2 := by
  induction entries with
  | nil => rfl
  | cons entry entries ih => rw [encodeEntries, ih, List.flatMap_cons]

theorem reads_mapValue {entries : List (Value × Value)} (hlen : entries.length < 2 ^ 64)
    (h : ∀ e ∈ entries, Reads (decodeValue fuel) e.1 (encodeValue e.1) ∧
      Reads (decodeValue fuel) e.2 (encodeValue e.2)) :
    Reads (decodeValue (fuel + 1)) (.map entries) (encodeValue (.map entries)) := by
  intro rest
  have hhead := @Cbor.reads_head 5 entries.length (by decide) hlen
    ((entries.flatMap fun e => encodeValue e.1 ++ encodeValue e.2) ++ rest)
  have hentries : Reads (Cbor.readMany
      (Cbor.decodeEntry (decodeValue fuel) (decodeValue fuel)) entries.length) entries
      (entries.flatMap fun e => encodeValue e.1 ++ encodeValue e.2) := by
    refine Cbor.reads_many fun e he => ?_
    rw [← List.append_nil (encodeValue e.2)]
    exact (h e he).1.andThen ((h e he).2.andThen (Cbor.reads_done e))
  rw [encodeValue, List.append_assoc, encodeEntries_eq]
  simp only [decodeValue, hhead, hentries rest, Option.map_some]

/-- An item that may be null. -/
theorem reads_optional {α : Type} {item : Option α} {write : α → Value}
    (h : ∀ a, item = some a → Reads (decodeValue (fuel + 1)) (write a) (encodeValue (write a))) :
    Reads (decodeValue (fuel + 1)) (item.elim .null write)
      (encodeValue (item.elim .null write)) := by
  cases item with
  | none => exact reads_null
  | some a => exact h a rfl

/-- A COSE key is read back. -/
theorem reads_toCoseValue {key : CoseEc2Key} (hx : key.x.length < 2 ^ 64)
    (hy : key.y.length < 2 ^ 64) :
    Reads (decodeValue (fuel + 2)) key.toCoseValue (encodeValue key.toCoseValue) := by
  refine reads_mapValue (Nat.lt_of_le_of_lt (Nat.le_refl 5) (by decide)) ?_
  simp only [List.mem_cons, List.not_mem_nil, or_false]
  rintro e (rfl | rfl | rfl | rfl | rfl)
  · exact ⟨reads_negative (n := 2) (by decide), reads_bytes hy⟩
  · exact ⟨reads_negative (n := 1) (by decide), reads_bytes hx⟩
  · exact ⟨reads_negative (n := 0) (by decide), reads_natural (n := 1) (by decide)⟩
  · exact ⟨reads_natural (n := 1) (by decide), reads_natural (n := 2) (by decide)⟩
  · exact ⟨reads_natural (n := 3) (by decide), reads_negative (n := 24) (by decide)⟩

/-- The CBOR library of the runs reads back every request that fits. -/
theorem readsRequests_sampleCbor : ReadsRequests sampleCbor := by
  intro request hfits
  have hreads : Reads (decodeValue 8) request.toArray (encodeValue request.toArray) := by
    refine reads_arrayValue (Nat.lt_of_le_of_lt (Nat.le_refl 10) (by decide)) ?_
    simp only [List.mem_cons, List.not_mem_nil, or_false]
    rintro item (rfl | rfl | rfl | rfl | rfl | rfl | rfl | rfl | rfl | rfl)
    · exact reads_optional fun n hn => reads_natural (by have := hfits.pinProtocol n hn; omega)
    · exact reads_natural (by have := hfits.subCommand; omega)
    · exact reads_optional fun key hkey =>
        reads_toCoseValue (hfits.keyAgreement key hkey).1 (hfits.keyAgreement key hkey).2
    · exact reads_optional fun bytes hbytes => reads_bytes (hfits.pinAuth bytes hbytes)
    · exact reads_optional fun bytes hbytes => reads_bytes (hfits.newPinEnc bytes hbytes)
    · exact reads_optional fun bytes hbytes => reads_bytes (hfits.pinHashEnc bytes hbytes)
    · exact reads_null
    · exact reads_null
    · exact reads_optional fun p _ => reads_natural (by have := p.toNat_lt; omega)
    · exact reads_optional fun text htext => reads_textValue (hfits.rpId text htext)
  have hwhole := hreads []
  rw [List.append_nil] at hwhole
  exact hwhole

end Cbor

/-- The keys of the session: the one of the platform, and three draws of the device. -/
inductive SampleKey
  | platform
  | first
  | second
  | fourth
  deriving DecidableEq

namespace SampleKey

/-- The coordinates of the point of a key; the key of the platform is one. -/
def point : SampleKey → Nat × Nat
  | platform => (0x6b17d1f2e12c4247f8bce6e563a440f277037d812deb33a0f4a13945d898c296,
      0x4fe342e2fe1a7f9b8ee7eb4a7c0f9e162bce33576b315ececbb6406837bf51f5)
  | first => (0x6ff03b949241ce1dadd43519e6960e0a85b41a69a05c328103aa2bce1594ca16,
      0x3c4f753a55bf01dc53f6c0b0c7eee78b40c6ff7d25a96e2282b989cef71c144a)
  | second => (0x550f471003f3df97c3df506ac797f6721fb1a1fb7b8f6f83d224498a65c88e24,
      0x136093d7012e509a73715cbd0b00a3cc0ff4b5c01b3ffa196ab1fb327036b8e6)
  | fourth => (0x73103ec30b3ccf57daae08e93534aef144a35940cf6bbba12a0cf7cbd5d65a64,
      0xd82c8c99e9d3c45f9245ba9b27982c9aea8ec1db94b19c44795942c0eb22aa32)

/-- The x coordinate that two keys agree on. -/
def shared : SampleKey → SampleKey → Nat
  | platform, key => key.point.1
  | key, platform => key.point.1
  | first, first => 0x489b7d3981c48bf53d6007123ebef4db2c8ced456c787747e2e158f35c9beab6
  | first, second | second, first =>
      0xeb459a6b30d70eb4c0ddcd34ea96ed59e8f8d1843c22dd895ab603aa13d9a81d
  | first, fourth | fourth, first | second, second =>
      0xb261d09f6eae623085410ba2156463fd432346a12590d0a4ceded5b7e5bf03cc
  | second, fourth | fourth, second =>
      0x9646570d5898ccc7641667542efc30da928570161432365a8fcf96787f23b996
  | fourth, fourth => 0x6f35bf9b64ecd86c5c9b7a7261f39780b24a7fbc5865e8233b885e1fb2b6d156

/-- The key that a draw yields; a draw that does not occur counts as the platform's. -/
def ofDraw (key : Entropy) : SampleKey :=
  if key.bytes 32 = drawn 32 1 then first
  else if key.bytes 32 = drawn 32 2 then second
  else if key.bytes 32 = drawn 32 4 then fourth
  else platform

/-- The uncompressed point of a key. -/
def uncompressed (key : SampleKey) : Bytes := 0x04 :: word32 key.point.1 ++ word32 key.point.2

/-- The key of an uncompressed point. -/
def ofPoint (point : Bytes) : Option SampleKey :=
  [platform, first, second, fourth].find? fun key => key.uncompressed = point

theorem ofPoint_uncompressed (key : SampleKey) : ofPoint key.uncompressed = some key := by
  cases key <;> decide +kernel

theorem shared_comm (i j : SampleKey) : i.shared j = j.shared i := by
  cases i <;> cases j <;> rfl

end SampleKey

/-- A cycle of two blocks. -/
def blockSwap (plain encrypted : Nat) : Equiv.Perm Bytes := .swap (word16 plain) (word16 encrypted)

/-- AES under the secrets of the session: the PIN in four blocks; its hash and the two blocks of the
token; the hash of a wrong PIN. -/
def sampleCipher (key : Bytes) : Equiv.Perm Bytes :=
  if key = word32 0x5f9441b96bbf196e9c2e44656c62cc7f87f255be3d7df2cde304675d8c8012e1 then
    [word16 0x31323334000000000000000000000000, word16 0x45b5cc1ae24f0a0ddb912c2a52cd3488,
      word16 0xbcd4489ef68af3e1e22633cd07debff6, word16 0x596807fa8e57189591cb93a784758173,
      word16 0x1f9c63151ebb77afea7b2199954907ef].formPerm
  else if key = word32 0x496992ff5bdcd1df15937fa4c35d03c6741e4d4964a42e27da2e9c3d72963df5 then
    blockSwap 0x03ac674216f3e15c761ee1a5e255f067 0x007b74c85a9b7903672883c3926a4368 *
      (blockSwap 0x03030303030303030303030303030303 0xb8e93006a7d1a65214e8905fb12184a9 *
        blockSwap 0xbbea3305a4d2a55117eb935cb22287aa 0x5eef0020692ea6657813177b016976bb)
  else if key = word32 0xe19b77d7b28ef1820a4d3fc741f976b084f6264f2865db28d56fc227fab68e24 then
    blockSwap 0xf8638b979b2f4f793ddb6dbd197e0ee2 0x52544bc86e670abd535368568c194b9b
  else 1

/-- The algorithms of the session. -/
def sessionTables : Tables where
  agreements := [(4, 0x73103ec30b3ccf57daae08e93534aef144a35940cf6bbba12a0cf7cbd5d65a64,
    0xe19b77d7b28ef1820a4d3fc741f976b084f6264f2865db28d56fc227fab68e24)]

/-- The engine with an elliptic curve and a block cipher. -/
def sessionCrypto : CryptoEngine :=
  { managedCrypto sessionTables with
    prims := { (managedCrypto sessionTables).prims with
      hkdfSha256 := fun _ _ _ len => some (List.replicate len 0)
      aesEncrypt := fun key block => sampleCipher key block
      aesDecrypt := fun key block => (sampleCipher key).symm block
      ecdhPublic := fun key => some (SampleKey.ofDraw key).uncompressed
      ecdhAgree := fun key peer => (SampleKey.ofPoint peer).map fun other =>
        word32 ((SampleKey.ofDraw key).shared other) } }

theorem isBlock_formPerm {blocks : List Bytes} (h : ∀ block ∈ blocks, IsBlock block) {block : Bytes}
    (hblock : IsBlock block) : IsBlock (blocks.formPerm block) := by
  by_cases hmem : block ∈ blocks
  · exact h _ (List.formPerm_apply_mem_of_mem hmem)
  · rw [List.formPerm_apply_of_notMem hmem]
    exact hblock

theorem isBlock_word16 (n : Nat) : IsBlock (word16 n) := Bytes.length_beBytes 16 n

theorem isBlock_blockSwap (plain encrypted : Nat) {block : Bytes} (hblock : IsBlock block) :
    IsBlock (blockSwap plain encrypted block) := by
  rw [blockSwap, Equiv.swap_apply_def]
  split
  · exact isBlock_word16 encrypted
  split
  · exact isBlock_word16 plain
  · exact hblock

theorem isBlock_sampleCipher (key : Bytes) {block : Bytes} (hblock : IsBlock block) :
    IsBlock (sampleCipher key block) := by
  unfold sampleCipher
  split
  · exact isBlock_formPerm (by simp [isBlock_word16]) hblock
  split
  · exact isBlock_blockSwap _ _ (isBlock_blockSwap _ _ (isBlock_blockSwap _ _ hblock))
  split
  · exact isBlock_blockSwap _ _ hblock
  · exact hblock

theorem sound_sessionCrypto : ProtocolSound sessionCrypto.prims where
  ecdh := by
    constructor
    · intro key
      exact ⟨_, _, rfl, Bytes.length_beBytes 32 _, Bytes.length_beBytes 32 _⟩
    · rintro key peer _ _ ⟨⟩ ⟨⟩
      refine ⟨word32 ((SampleKey.ofDraw key).shared (SampleKey.ofDraw peer)), ?_, ?_⟩
      · show (SampleKey.ofPoint (SampleKey.ofDraw peer).uncompressed).map _ = _
        rw [SampleKey.ofPoint_uncompressed]
        rfl
      · show (SampleKey.ofPoint (SampleKey.ofDraw key).uncompressed).map _ = _
        rw [SampleKey.ofPoint_uncompressed, SampleKey.shared_comm]
        rfl
  hkdf := fun _ _ _ => ⟨_, rfl, List.length_replicate⟩
  aes := ⟨fun _ hblock => isBlock_sampleCipher _ hblock, fun _ _ => Equiv.symm_apply_apply _ _⟩

/-- A new device with that engine, and a platform that holds no token. -/
def sampleSession : Session KvMap := ⟨{ memoryDevice with crypto := sessionCrypto }, none⟩

theorem ready_sampleSession : sampleSession.Ready where
  free := by decide +kernel
  synced := blank_memoryDevice.storage.synced
  held := nofun
  length := nofun

/-- A PIN of four digits. -/
def typed (pin : String) (h : (utf8 pin).length = 4 ∧ (utf8 pin).getLast? ≠ some 0) : TypedPin where
  bytes := utf8 pin
  nonempty := by omega
  fits := by omega
  last := h.2

/-- The scalar one. -/
def platformKey : Entropy := fun n => if n = 31 then 1 else 0

/-- A turn of the platform in version 1. -/
def operate (op : PinOp) : Turn := .operate .one platformKey (fun _ => 0) (fun _ => 0) op

/-- The PIN is set, a token is asked for, and then one with a wrong PIN. -/
def sampleTurns : List Turn :=
  [operate (.setPin (typed "1234" (by decide +kernel))),
    operate (.getPinToken (typed "1234" (by decide +kernel))),
    operate (.getPinToken (typed "5678" (by decide +kernel)))]

set_option maxRecDepth 100000 in
/-- Two operations succeed, and the wrong PIN costs a try. -/
theorem session_refines_sample :
    (sampleSession.turns sampleBuild sampleTurns).1 =
        [some (.ok ()), some (.ok ()), some (.error .pinInvalid)] ∧
      (sampleSession.turns sampleBuild sampleTurns).2.device.pinObject.retries = 7 := by
  obtain ⟨hresults, hobject, -⟩ := @Session.session_refines _ _ _ sampleBuild sampleSession
    ready_sampleSession readsRequests_sampleCbor sound_sessionCrypto sampleTurns
  rw [hresults, hobject]
  decide +kernel

end OpenKey
