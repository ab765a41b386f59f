import OpenKey.Device.Management
import OpenKey.Device.Oath
import OpenKey.Device.OpenPgp
import OpenKey.Device.Piv

/-!
# The card

The four applets on one storage, as `main` of the firmware and the simulator put them together:
`register_multiprotocol_applets` of `crates/openkey-device/src/firmware/multiprotocol.rs`, and the
boot, which builds each applet and so loads its state.

The applets are a family over `AppletName`. What is proved for one of them is proved for all.
-/

namespace OpenKey

open Command Prog

set_option autoImplicit false

/-- The applets. -/
inductive AppletName
  | management
  | oath
  | piv
  | openPgp
  deriving DecidableEq, Repr

namespace AppletName

/-- The states of an applet. -/
def State : AppletName → Type
  | .management => ManagementState
  | .oath => OathState
  | .piv => PivState
  | .openPgp => OpenPgpState

/-- The sessions of an applet. -/
def Session : AppletName → Type
  | .management => Unit
  | .oath => Oath.Session
  | .piv => PivSession
  | .openPgp => OpenPgpSession

/-- The session of a new applet. -/
def fresh : (n : AppletName) → n.Session
  | .management => ()
  | .oath => Oath.Session.fresh
  | .piv => ⟨false⟩
  | .openPgp => ⟨false⟩

/-- The AID that is registered. -/
def aid : AppletName → Bytes
  | .management => aidYubicoManagement
  | .oath => Oath.aid
  | .piv => aidPiv
  | .openPgp => aidOpenPgpFull

/-- The state of an applet in storage. -/
def format (patience : Nat) : (n : AppletName) → AppletFormat n.State
  | .management => managementFormat patience
  | .oath => Oath.format
  | .piv => pivFormat
  | .openPgp => openPgpFormat

/-- The key of an applet. -/
def storageKey : AppletName → String
  | .management => "sys:mgmt"
  | .oath => "sys:oath"
  | .piv => "sys:piv"
  | .openPgp => "sys:openpgp"

theorem storageKey_format (patience : Nat) (n : AppletName) :
    (n.format patience).storageKey = n.storageKey := by
  cases n <;> rfl

theorem storageKey_inj {n n' : AppletName} (h : n.storageKey = n'.storageKey) : n = n' := by
  revert h
  cases n <;> cases n' <;> decide

/-- `select`. -/
def select : (n : AppletName) → Command n.State n.Session Unit
  | .management => ensureLoaded
  | .oath => Oath.select
  | .piv => ensureLoaded
  | .openPgp => ensureLoaded

/-- `select_response`; the Management applet tells the version `5.4.0`. -/
def selectResponse : (n : AppletName) → Command n.State n.Session Bytes
  | .management => pure [0x35, 0x2E, 0x34, 0x2E, 0x30]
  | .oath => Oath.selectResponse
  | .piv => pure []
  | .openPgp => orFault applicationData

/-- `process`. -/
def process (crypto : AppletCrypto) :
    (n : AppletName) → Apdu → Command n.State n.Session ResponseData
  | .management => managementProcess
  | .oath => Oath.process crypto
  | .piv => pivProcess crypto
  | .openPgp => openPgpProcess crypto

/-- The instructions of an applet. -/
def instructions : AppletName → List UInt8
  | .management => [0x1D, 0x1C, 0x16]
  | .oath => [Oath.insPut, Oath.insDelete, Oath.insSetCode, Oath.insReset, Oath.insRename,
      Oath.insList, Oath.insCalculate, Oath.insValidate, Oath.insCalculateAll,
      Oath.insSendRemaining]
  | .piv => [0x20, 0x24, 0xCB, 0x47, 0x87, 0xDB]
  | .openPgp => [0x20, 0xCA, 0x47, 0x2A]

end AppletName

/-! ## The card -/

/-- An applet on the card: its memory, and the state it persisted last. -/
structure Seat (S V : Type) where
  memory : Memory S V
  saved : Option S

/-- The applets on one storage. -/
structure Card (β : Type) where
  storage : StorageEngine β
  /-- The draws still to come from the system random generator. -/
  rng : Nat → Entropy
  seats : (n : AppletName) → Seat n.State n.Session

namespace Card

variable {β : Type}

/-- One applet on the storage. -/
def host (n : AppletName) (c : Card β) : Host β n.State n.Session :=
  ⟨c.storage, c.rng, (c.seats n).memory, (c.seats n).saved⟩

/-- The card after one applet has worked. -/
def setHost (n : AppletName) (h : Host β n.State n.Session) (c : Card β) : Card β where
  storage := h.storage
  rng := h.rng
  seats := Function.update c.seats n ⟨h.memory, h.saved⟩

/-- A program of one applet. -/
def on {α : Type} (n : AppletName) (m : Prog (Host β n.State n.Session) Fault α) :
    Prog (Card β) Fault α :=
  Prog.zoom (host n) (setHost n) m

/-- The card before any applet is built. -/
def blank (storage : StorageEngine β) (rng : Nat → Entropy) : Card β where
  storage := storage
  rng := rng
  seats n := ⟨⟨none, n.fresh⟩, none⟩

variable [StorageBackend β] (crypto : AppletCrypto) (patience : Nat)

/-- A command of an applet. -/
def perform {α : Type} (n : AppletName) (command : Command n.State n.Session α) :
    Prog (Card β) Fault α :=
  on n (Host.perform crypto (n.format patience) command)

/-- An applet for the router. -/
def applet (n : AppletName) : CardApplet (Card β) where
  aid := n.aid
  select := perform crypto patience n n.select
  selectResponse := perform crypto patience n n.selectResponse
  process apdu := perform crypto patience n (n.process crypto apdu)

/-- `register_multiprotocol_applets`. -/
def applets : List (CardApplet (Card β)) :=
  [.management, .oath, .piv, .openPgp].map (applet crypto patience)

/-- The place of an applet in the router. -/
def place : AppletName → Nat
  | .management => 0
  | .oath => 1
  | .piv => 2
  | .openPgp => 3

/-- The applets are built one after the other. -/
def build : List AppletName → Prog (Card β) Fault Unit
  | [] => pure ()
  | n :: rest => do
      on n (Host.ensureLoaded crypto (n.format patience))
      build rest

/-! ## Applets leave each other alone -/

section

variable {c : Card β} {n : AppletName}

omit [StorageBackend β] in
@[simp] theorem host_setHost (h : Host β n.State n.Session) : (c.setHost n h).host n = h := by
  unfold host setHost
  simp only [Function.update_self]

omit [StorageBackend β] in
theorem seats_setHost_self (h : Host β n.State n.Session) :
    (c.setHost n h).seats n = ⟨h.memory, h.saved⟩ := Function.update_self _ _ _

omit [StorageBackend β] in
theorem seats_setHost {n' : AppletName} (hne : n' ≠ n) (h : Host β n.State n.Session) :
    (c.setHost n h).seats n' = c.seats n' := Function.update_of_ne hne _ _

end

/-! ## What the applets do to the storage -/

/-- The moves that stay within `G` on the storage. -/
def storageFrame (G : Prog.Frame (StorageEngine β)) : Prog.Frame (Card β) where
  rel c c' := G.rel c.storage c'.storage
  refl c := G.refl c.storage
  trans := G.trans

section

variable {G : Prog.Frame (StorageEngine β)} {crypto patience}
  (hG : ∀ (n : AppletName) blob, Prog.Keeps G (StorageEngine.store n.storageKey blob))

include hG

theorem keeps_store_format (n : AppletName) (blob : Bytes) :
    Prog.Keeps G (StorageEngine.store (n.format patience).storageKey blob) := by
  rw [AppletName.storageKey_format]
  exact hG n blob

theorem keeps_storage_perform {α : Type} (n : AppletName)
    (command : Command n.State n.Session α) :
    Prog.Keeps (storageFrame G) (perform crypto patience n command) :=
  fun c => Host.keeps_command (keeps_store_format hG n) command (c.host n)

theorem keeps_storage_build (names : List AppletName) :
    Prog.Keeps (storageFrame G) (build crypto patience names) := by
  induction names with
  | nil => exact .pure ()
  | cons n rest ih =>
      exact Prog.Keeps.bind (fun c => Host.keeps_ensureLoaded (keeps_store_format hG n) (c.host n))
        fun _ => ih

end

/-- What every command of an applet keeps, the applets keep. -/
theorem within_applets {F : Prog.Frame (Card β)}
    (h : ∀ {α : Type} (n : AppletName) (command : Command n.State n.Session α),
      Prog.Keeps F (perform crypto patience n command)) :
    ∀ applet ∈ applets crypto patience, CardApplet.Within F applet := by
  intro applet happlet
  obtain ⟨n, -, rfl⟩ := List.mem_map.mp happlet
  exact ⟨h n _, h n _, fun apdu => h n _⟩

end Card

end OpenKey
