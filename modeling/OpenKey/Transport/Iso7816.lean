import OpenKey.Library.Bytes
import OpenKey.Library.Prog

/-!
# The ISO 7816-4 router

`crates/openkey-transport/src/iso7816.rs`: the command APDU in its short and extended forms, and
`CardRouter`, which selects an applet by its AID, hands it the commands and serves responses that
do not fit in pieces.

The router is generic in the card `γ` that the applets share.
-/

namespace OpenKey

set_option autoImplicit false

/-! ## Status words -/

/-- `SW_NO_ERROR`. -/
def swNoError : UInt16 := 0x9000

/-- `SW_FILE_NOT_FOUND`. -/
def swFileNotFound : UInt16 := 0x6A82

/-- `SW_INS_NOT_SUPPORTED`. -/
def swInsNotSupported : UInt16 := 0x6D00

/-- `SW_WRONG_P1_P2`. -/
def swWrongP1P2 : UInt16 := 0x6B00

/-- `SW_WRONG_LENGTH`. -/
def swWrongLength : UInt16 := 0x6700

/-- `SW_CONDITIONS_NOT_SATISFIED`. -/
def swConditionsNotSatisfied : UInt16 := 0x6985

/-- `SW_SECURITY_STATUS`. -/
def swSecurityStatus : UInt16 := 0x6982

/-- `sw_more_data`: `61 XX`, with `XX = 00` for more than 255. -/
def swMoreData (remaining : Nat) : UInt16 :=
  if remaining > 255 then 0x6100 else 0x6100 ||| UInt16.ofNat remaining

/-! ## Commands -/

/-- `Apdu`. -/
structure Apdu where
  cla : UInt8
  ins : UInt8
  p1 : UInt8
  p2 : UInt8
  data : Bytes
  le : Option Nat
  deriving DecidableEq, Repr

/-- `ApduParseError`. -/
inductive ApduParseError
  | tooShort
  | truncatedBody
  | trailingBytes
  deriving DecidableEq, Repr

/-- `le_from_byte`. -/
def leFromByte (b : UInt8) : Nat := if b = 0 then 256 else b.toNat

/-- `le_from_pair`. -/
def leFromPair (hi lo : UInt8) : Nat :=
  let value := 256 * hi.toNat + lo.toNat
  if value = 0 then 65536 else value

namespace Apdu

/-- The extended forms with data: `00 LcHi LcLo data`, and a length of two bytes or none. -/
def parseExtended (cla ins p1 p2 hi lo : UInt8) (body : Bytes) : Except ApduParseError Apdu :=
  let lc := 256 * hi.toNat + lo.toNat
  if body.length < lc then .error .truncatedBody
  else
    match body.drop lc with
    | [] => .ok ⟨cla, ins, p1, p2, body.take lc, none⟩
    | [leHi, leLo] => .ok ⟨cla, ins, p1, p2, body.take lc, some (leFromPair leHi leLo)⟩
    | _ => .error .trailingBytes

/-- The short forms with data: `Lc data`, and a length of one byte or none. -/
def parseShort (cla ins p1 p2 lc : UInt8) (body : Bytes) : Except ApduParseError Apdu :=
  if body.length < lc.toNat then .error .truncatedBody
  else
    match body.drop lc.toNat with
    | [] => .ok ⟨cla, ins, p1, p2, body.take lc.toNat, none⟩
    | [le] => .ok ⟨cla, ins, p1, p2, body.take lc.toNat, some (leFromByte le)⟩
    | _ => .error .trailingBytes

/-- `parse`. -/
def parse : Bytes → Except ApduParseError Apdu
  | cla :: ins :: p1 :: p2 :: rest =>
      match rest with
      | [] => .ok ⟨cla, ins, p1, p2, [], none⟩
      | [le] => .ok ⟨cla, ins, p1, p2, [], some (leFromByte le)⟩
      | first :: second :: body =>
          if first = 0 then
            match body with
            | [] => .ok ⟨cla, ins, p1, p2, [], some (leFromByte second)⟩
            | [third] => .ok ⟨cla, ins, p1, p2, [], some (leFromPair second third)⟩
            | third :: body => parseExtended cla ins p1 p2 second third body
          else parseShort cla ins p1 p2 first (second :: body)
  | _ => .error .tooShort

example : parse [0, 0xA4, 4, 0, 2, 7, 8, 0] = .ok ⟨0, 0xA4, 4, 0, [7, 8], some 256⟩ := by decide

end Apdu

/-! ## Responses and applets -/

/-- `ResponseData`; without a status word it means success. -/
structure ResponseData where
  data : Bytes
  sw : Option UInt16
  deriving DecidableEq, Repr

/-- `ResponseData::ok`. -/
def ResponseData.ok (data : Bytes) : ResponseData := ⟨data, none⟩

/-- `ResponseData::with_sw`. -/
def ResponseData.withSw (data : Bytes) (sw : UInt16) : ResponseData := ⟨data, some sw⟩

/-- `ResponseData::to_bytes`. -/
def ResponseData.toBytes (response : ResponseData) : Bytes :=
  response.data ++ Bytes.beBytes 2 (response.sw.getD swNoError).toNat

/-- How an applet fails: with a status word, by a panic, or by not returning. -/
inductive Fault
  | status (sw : UInt16)
  | panic
  | hang
  deriving DecidableEq, Repr

/-- A result with the status word of a failure; the other faults are not caught. -/
def Fault.status? {α : Type} : Except Fault α → Except Fault (Except UInt16 α)
  | .ok a => .ok (.ok a)
  | .error (.status sw) => .ok (.error sw)
  | .error fault => .error fault

/-- The trait `Applet`, over a card `γ`. -/
structure CardApplet (γ : Type) where
  aid : Bytes
  select : Prog γ Fault Unit
  selectResponse : Prog γ Fault Bytes
  process : Apdu → Prog γ Fault ResponseData

/-! ## The router -/

/-- `ChainState`. -/
structure ChainState where
  buf : Bytes
  pos : Nat
  finalSw : UInt16

/-- `CardRouter`, with the card its applets share. -/
structure CardRouter (γ : Type) where
  card : γ
  selected : Option Nat
  chain : Option ChainState

namespace CardRouter

variable {γ : Type} (applets : List (CardApplet γ))

/-- A call on the card, with the status word of its failure. -/
def onCard {α : Type} (m : Prog γ Fault α) : Prog (CardRouter γ) Fault (Except UInt16 α) :=
  .mk fun r => (Fault.status? (m.run r.card).1, { r with card := (m.run r.card).2 })

/-- The search of `handle_select`: an exact AID wins at once, else the longest that starts with
the one requested. -/
def findApplet (requested : Bytes) :
    List (Nat × CardApplet γ) → Option Nat → Nat → Option Nat
  | [], best, _ => best
  | (idx, applet) :: rest, best, bestLen =>
      if applet.aid = requested then some idx
      else if requested.isPrefixOf applet.aid ∧ applet.aid.length > bestLen then
        findApplet requested rest (some idx) applet.aid.length
      else findApplet requested rest best bestLen

/-- `handle_select`. -/
def handleSelect (apdu : Apdu) : Prog (CardRouter γ) Fault ResponseData :=
  if apdu.data = [] then pure (.withSw [] swFileNotFound)
  else
    match findApplet apdu.data ((List.range applets.length).zip applets) none 0 with
    | none => pure (.withSw [] swFileNotFound)
    | some idx =>
        match applets[idx]? with
        | none => Prog.fail .panic
        | some applet => do
            let result ← onCard applet.select
            match result with
            | .error sw => pure (.withSw [] sw)
            | .ok () => do
                Prog.update fun r => { r with selected := some idx }
                let data ← onCard applet.selectResponse
                match data with
                | .ok data => pure (.withSw data swNoError)
                | .error sw => pure (.withSw [] sw)

/-- `deliver`: all of it if it fits in `le`, else the first piece. -/
def deliver (response : ResponseData) (le : Option Nat) :
    Prog (CardRouter γ) Fault ResponseData :=
  let sw := response.sw.getD swNoError
  let limit := le.getD 0
  if response.data = [] then pure (.withSw [] sw)
  else if response.data.length ≤ limit then pure (.withSw response.data sw)
  else do
    Prog.update fun r => { r with chain := some ⟨response.data, limit, sw⟩ }
    pure (.withSw (response.data.take limit) (swMoreData (response.data.length - limit)))

/-- `serve_get_response`. -/
def serveGetResponse (le : Option Nat) : Prog (CardRouter γ) Fault ResponseData := do
  let chain ← Prog.act fun r => (r.chain, { r with chain := none })
  match chain with
  | none => pure (.withSw [] swConditionsNotSatisfied)
  | some chain =>
      let n := min (le.getD 256) (chain.buf.length - chain.pos)
      let chunk := (chain.buf.drop chain.pos).take n
      let pos := chain.pos + n
      if pos = chain.buf.length then pure (.withSw chunk chain.finalSw)
      else do
        Prog.update fun r => { r with chain := some { chain with pos := pos } }
        pure (.withSw chunk (swMoreData (chain.buf.length - pos)))

/-- The command of the applet that is selected. -/
def route (apdu : Apdu) : Prog (CardRouter γ) Fault ResponseData := do
  let selected ← Prog.read fun r => r.selected
  match selected.bind fun idx => applets[idx]? with
  | none => pure (.withSw [] swInsNotSupported)
  | some applet => do
      let result ← onCard (applet.process apdu)
      deliver (match result with
        | .ok response => response
        | .error sw => .withSw [] sw) apdu.le

/-- `process`. -/
def process (raw : Bytes) : Prog (CardRouter γ) Fault ResponseData :=
  match Apdu.parse raw with
  | .error _ => pure (.withSw [] swWrongLength)
  | .ok apdu =>
      if apdu.ins = 0xC0 then serveGetResponse apdu.le
      else do
        Prog.update fun r => { r with chain := none }
        if apdu.ins = 0xA4 then handleSelect applets apdu else route applets apdu

/-! ## What the applets keep, the router keeps -/

/-- The moves of the router that are moves of the card along `F`. -/
def cardFrame (F : Prog.Frame γ) : Prog.Frame (CardRouter γ) where
  rel r s := F.rel r.card s.card
  refl r := F.refl r.card
  trans := F.trans

end CardRouter

/-- The operations of an applet are moves of `F`. -/
structure CardApplet.Within {γ : Type} (F : Prog.Frame γ) (applet : CardApplet γ) : Prop where
  select : Prog.Keeps F applet.select
  selectResponse : Prog.Keeps F applet.selectResponse
  process : ∀ apdu, Prog.Keeps F (applet.process apdu)

namespace CardRouter

section

open Prog (Keeps)

variable {γ : Type} {F : Prog.Frame γ}

theorem keeps_cardFrame_onCard {α : Type} {m : Prog γ Fault α} (h : Keeps F m) :
    Keeps (cardFrame F) (onCard m) := fun r => h r.card

variable {applets : List (CardApplet γ)} (h : ∀ applet ∈ applets, applet.Within F)

include h

theorem keeps_cardFrame_handleSelect (apdu : Apdu) :
    Keeps (cardFrame F) (handleSelect applets apdu) := by
  unfold handleSelect
  refine .ite (fun _ => .pure _) fun _ => ?_
  split
  · exact .pure _
  · split
    · exact .fail _
    · next applet happlet =>
        have hwithin := h applet (List.mem_of_getElem? happlet)
        refine (keeps_cardFrame_onCard hwithin.select).bind fun result => ?_
        rcases result with sw | _
        · exact .pure _
        · refine (Keeps.update fun r => F.refl r.card).bind fun _ =>
            (keeps_cardFrame_onCard hwithin.selectResponse).bind fun data => ?_
          cases data <;> exact .pure _

theorem keeps_cardFrame_route (apdu : Apdu) : Keeps (cardFrame F) (route applets apdu) := by
  refine (Keeps.read _).bind fun selected => ?_
  split
  · exact .pure _
  · next applet happlet =>
      obtain ⟨idx, -, happlet⟩ := Option.bind_eq_some_iff.mp happlet
      have hwithin := h applet (List.mem_of_getElem? happlet)
      refine (keeps_cardFrame_onCard (hwithin.process apdu)).bind fun result => ?_
      exact .ite (fun _ => .pure _) fun _ => .ite (fun _ => .pure _) fun _ =>
        (Keeps.update fun r => F.refl r.card).bind fun _ => .pure _

/-- Whatever bytes the router is given, the card moves along `F`. -/
theorem keeps_cardFrame_process (raw : Bytes) : Keeps (cardFrame F) (process applets raw) := by
  unfold process
  split
  · exact .pure _
  · refine .ite (fun _ => ?_) fun _ => (Keeps.update fun r => F.refl r.card).bind fun _ =>
      .ite (fun _ => keeps_cardFrame_handleSelect h _) fun _ => keeps_cardFrame_route h _
    refine Keeps.bind (fun r => F.refl r.card) fun chain => ?_
    cases chain with
    | none => exact .pure _
    | some chain =>
        exact .ite (fun _ => .pure _) fun _ => (Keeps.update fun r => F.refl r.card).bind fun _ =>
          .pure _

end

end CardRouter

end OpenKey
