import OpenKey.Device.Card
import OpenKey.Transport.Iso7816Routing

/-!
# Which instructions reach the applets

The router takes INS `A4` for a SELECT before it looks at P1, and `A4` is CALCULATE ALL of the OATH
applet. Of the instructions of the four applets it is the only one that the router keeps to itself
(`reaches_iff`). `process_unknown` says that the tables of instructions are those of the code: an
applet answers every other instruction with `6D00`.
-/

namespace OpenKey

set_option autoImplicit false

/-! ## The tables -/

namespace Card

variable {β : Type} [StorageBackend β] (crypto : AppletCrypto) (patience : Nat)

theorem dispatch_unknown {apdu : Apdu} (hins : apdu.ins ∉ AppletName.oath.instructions) :
    Oath.dispatch crypto apdu = Command.refuse swInsNotSupported := by
  unfold Oath.dispatch
  simp only [AppletName.instructions, List.mem_cons, List.not_mem_nil, or_false, not_or] at hins
  obtain ⟨h1, h2, h3, h4, h5, h6, h7, h8, h9, -⟩ := hins
  simp only [h1, h2, h3, h4, h5, h6, h7, h8, h9, if_false]

/-- An instruction that is not in its table is refused by an applet. -/
theorem process_unknown (n : AppletName) {apdu : Apdu} (hcla : apdu.cla = 0)
    (hins : apdu.ins ∉ n.instructions) (c : Card β) :
    ((perform crypto patience n (n.process crypto apdu)).run c).1 =
      .error (.status swInsNotSupported) := by
  cases n with
  | management =>
      simp only [AppletName.instructions, List.mem_cons, List.not_mem_nil, or_false, not_or] at hins
      obtain ⟨h1, h2, h3⟩ := hins
      simp only [perform, AppletName.process, managementProcess, hcla, h1, h2, h3, if_false]
      rfl
  | oath =>
      have hrem : apdu.ins ≠ Oath.insSendRemaining := by
        intro h
        rw [h] at hins
        exact hins (by decide)
      simp only [perform, AppletName.process, Oath.process, hcla, hrem, if_false,
        dispatch_unknown crypto hins]
      rfl
  | piv =>
      simp only [AppletName.instructions, List.mem_cons, List.not_mem_nil, or_false, not_or] at hins
      obtain ⟨h1, h2, h3, h4, h5, h6⟩ := hins
      simp only [perform, AppletName.process, pivProcess, hcla, h1, h2, h3, h4, h5, h6, if_false]
      rfl
  | openPgp =>
      simp only [AppletName.instructions, List.mem_cons, List.not_mem_nil, or_false, not_or] at hins
      obtain ⟨h1, h2, h3, h4⟩ := hins
      simp only [perform, AppletName.process, openPgpProcess, hcla, h1, h2, h3, h4, if_false]
      rfl

theorem place_lt (n : AppletName) : place n < 4 := by
  cases n <;> decide

end Card

/-! ## What reaches an applet -/

namespace CardRouter

variable {γ : Type} (applets : List (CardApplet γ))

/-- An instruction reaches the applet while it is selected: each command with it is handed over as
it is, once. -/
def Reaches (idx : Nat) (ins : UInt8) : Prop :=
  ∀ (r : CardRouter (γ × CommandLog)) raw apdu, Registered applets r → r.selected = some idx →
    Apdu.parse raw = .ok apdu → apdu.ins = ins →
    log (next applets r raw) = log r ++ [(idx, apdu)]

/-- The command without data of an instruction. -/
theorem parse_bare (ins : UInt8) : Apdu.parse [0, ins, 0, 0] = .ok ⟨0, ins, 0, 0, [], none⟩ := rfl

theorem reaches_iff (card : γ) {idx : Nat} (hidx : idx < applets.length) (ins : UInt8) :
    Reaches applets idx ins ↔ ins ≠ 0xC0 ∧ ins ≠ 0xA4 := by
  constructor
  · intro hreach
    by_contra hkept
    rw [← not_or, not_not] at hkept
    have hlog := hreach ⟨(card, []), some idx, none⟩ [0, ins, 0, 0] _
      (fun i hi => Option.some.inj hi ▸ hidx) rfl (parse_bare ins) rfl
    have hsame : log (next applets ⟨(card, []), some idx, none⟩ [0, ins, 0, 0]) = [] :=
      (unrecorded_next applets (parse_bare ins) hkept ⟨(card, []), some idx, none⟩).1
    rw [hsame] at hlog
    cases hlog
  · rintro ⟨hget, hselect⟩ r raw apdu hreg hsel hparse rfl
    rw [next_routed applets hparse hget hselect]
    exact (keeps_route applets (r := { r with chain := none }) apdu hsel hreg).1

/-- A run is transparent exactly when no command with INS `A4` and a P1 other than `04` meets a
selected applet, and an instruction of an applet can be executed through the router exactly when it
is not `A4`. -/
theorem router_transparent_iff {β : Type} [StorageBackend β] (crypto : AppletCrypto)
    (patience : Nat) :
    (∀ {γ : Type} (applets : List (CardApplet γ)) (r : CardRouter (γ × CommandLog))
        (raws : List Bytes), Registered applets r →
        (log (runAll applets r raws) = log r ++ demandedAll applets r raws ↔
          Clear applets r raws)) ∧
      ∀ n : AppletName, ∀ ins ∈ n.instructions,
        (Reaches (Card.applets crypto patience : List (CardApplet (Card β))) (Card.place n) ins ↔
          ins ≠ 0xA4) := by
  refine ⟨fun applets r raws hreg => transparent_iff applets hreg raws, fun n ins hins => ?_⟩
  have hplace : Card.place n < (Card.applets crypto patience : List (CardApplet (Card β))).length :=
    Card.place_lt n
  rw [reaches_iff _ (Card.blank StorageEngine.new fun _ _ => 0) hplace]
  refine ⟨fun h => h.2, fun h => ⟨?_, h⟩⟩
  rintro rfl
  revert hins
  cases n <;> decide

/-- An engine for runs that call no algorithm. -/
def idleCrypto : AppletCrypto where
  toCryptoEngine := unusedCrypto
  hmacSha1 _ _ := List.replicate 20 0
  length_hmacSha1 := length_sha1Zeros
  hmacSha512 _ _ := List.replicate 64 0
  length_hmacSha512 := length_sha512Zeros
  length_ed25519Public h := nomatch h
  length_p256Generate h := nomatch h

/-- A router with an applet selected, before anything is recorded. -/
def selecting (n : AppletName) : CardRouter (Card KvMap × CommandLog) :=
  ⟨(Card.blank StorageEngine.new fun _ _ => 0, []), some (Card.place n), none⟩

theorem registered_selecting (n : AppletName) :
    Registered (Card.applets idleCrypto 1) (selecting n) := by
  intro idx hidx
  obtain rfl := Option.some.inj hidx
  exact Card.place_lt n

/-- VERIFY reaches the PIV applet, and no run of one such command loses it. -/
theorem router_transparent_iff_verify :
    Reaches (Card.applets idleCrypto 1 : List (CardApplet (Card KvMap))) (Card.place .piv) 0x20 ∧
      log (runAll (Card.applets idleCrypto 1) (selecting .piv) [[0x00, 0x20, 0x00, 0x80]]) =
        [(Card.place .piv, ⟨0x00, 0x20, 0x00, 0x80, [], none⟩)] := by
  obtain ⟨hruns, hreaches⟩ := @router_transparent_iff KvMap _ idleCrypto 1
  refine ⟨(hreaches .piv 0x20 (by decide)).mpr (by decide), ?_⟩
  refine (hruns (Card.applets idleCrypto 1) (selecting .piv) [[0x00, 0x20, 0x00, 0x80]]
    (registered_selecting .piv)).mpr ⟨?_, trivial⟩
  rintro ⟨apdu, hparse, -, hins, -⟩
  obtain rfl := Except.ok.inj hparse
  exact absurd hins (by decide)

/-- CALCULATE ALL of the OATH applet, with a challenge of eight bytes. -/
def calculateAll : Bytes :=
  [0x00, 0xA4, 0x00, 0x01, 0x0A, 0x74, 0x08, 1, 2, 3, 4, 5, 6, 7, 8, 0x00]

/-- While the OATH applet is selected, CALCULATE ALL does not reach it. -/
theorem calculateAll_swallowed :
    ∃ r : CardRouter (Card KvMap × CommandLog),
      Registered (Card.applets idleCrypto 1) r ∧ r.selected = some (Card.place .oath) ∧
      demanded r calculateAll = [(Card.place .oath,
        ⟨0x00, Oath.insCalculateAll, 0x00, 0x01, [0x74, 0x08, 1, 2, 3, 4, 5, 6, 7, 8], some 256⟩)] ∧
      log (next (Card.applets idleCrypto 1) r calculateAll) = log r := by
  have hparse : Apdu.parse calculateAll = .ok ⟨0x00, 0xA4, 0x00, 0x01,
      [0x74, 0x08, 1, 2, 3, 4, 5, 6, 7, 8], some 256⟩ := by decide
  exact ⟨selecting .oath, registered_selecting .oath, rfl, by decide,
    (unrecorded_next (Card.applets idleCrypto 1) hparse (.inr rfl) _).1⟩

end CardRouter

end OpenKey
