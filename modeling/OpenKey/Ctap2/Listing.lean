import Mathlib.Data.List.Dedup
import Mathlib.Data.List.Perm.Subperm
import OpenKey.Ctap2.Selection
import OpenKey.Storage.Capacity

/-!
# Enumerations of what is stored

Three enumerations keep a snapshot and a position across commands: EnumerateRPs, and enumerateRPs
and enumerateCredentials of CredentialManagement. `Delivers` says what the steps of one answer, from
any state that has kept its snapshot, so that whatever else happens in between is allowed.

**Theorem (`complete_iff`).** On every engine the three list every relying party and every
credential once, and announce in every answer how many there are, exactly when there are fewer
relying parties than EnumerateRPs can count in its byte, no more credentials of one relying party
than 32 bits count, and every credential opens. EnumerateRPs announces 256 of them as none.
-/

namespace OpenKey

open Prog (Keeps bind_eq_ok)

set_option autoImplicit false

/-! ## Relying parties in the store -/

namespace StorageEngine

variable {β : Type}

theorem mem_enumerateRpsFrom {seen : List Bytes} {l : List StoredCredential}
    {rp : String × Bytes} (h : rp ∈ enumerateRpsFrom seen l) :
    rp.2 ∉ seen ∧ ∃ s ∈ l, s.credential.rpId ≠ "" ∧
      rp = (s.credential.rpId, s.credential.rpIdHash) := by
  induction l generalizing seen with
  | nil => cases h
  | cons s l ih =>
      have hlater : ∀ {seen' : List Bytes}, rp ∈ enumerateRpsFrom seen' l → rp.2 ∉ seen' ∧
          ∃ s' ∈ s :: l, s'.credential.rpId ≠ "" ∧
            rp = (s'.credential.rpId, s'.credential.rpIdHash) := by
        intro seen' hmem
        obtain ⟨hseen, s', hs', htext⟩ := ih hmem
        exact ⟨hseen, s', List.mem_cons_of_mem s hs', htext⟩
      rw [enumerateRpsFrom] at h
      split at h
      · exact hlater h
      · next htext =>
          split at h
          · exact hlater h
          · next hnew =>
              rcases List.mem_cons.mp h with rfl | h
              · exact ⟨hnew, s, List.mem_cons_self, htext, rfl⟩
              · obtain ⟨hseen, hrest⟩ := hlater h
                exact ⟨fun hmem => hseen (List.mem_cons_of_mem _ hmem), hrest⟩

/-- Each hash is listed once. -/
theorem nodup_enumerateRpsFrom (seen : List Bytes) (l : List StoredCredential) :
    ((enumerateRpsFrom seen l).map (·.2)).Nodup := by
  induction l generalizing seen with
  | nil => exact List.nodup_nil
  | cons s l ih =>
      rw [enumerateRpsFrom]
      split
      · exact ih seen
      · split
        · exact ih seen
        · rw [List.map_cons, List.nodup_cons]
          refine ⟨fun hmem => ?_, ih _⟩
          obtain ⟨rp, hrp, heq⟩ := List.mem_map.mp hmem
          exact (mem_enumerateRpsFrom hrp).1 (heq ▸ List.mem_cons_self)

/-- Each hash of a credential with a textual id is listed, unless it was before. -/
theorem mem_hashes_enumerateRpsFrom {seen : List Bytes} {l : List StoredCredential}
    {s : StoredCredential} (hs : s ∈ l) (htext : s.credential.rpId ≠ "")
    (hnew : s.credential.rpIdHash ∉ seen) :
    s.credential.rpIdHash ∈ (enumerateRpsFrom seen l).map (·.2) := by
  induction l generalizing seen with
  | nil => cases hs
  | cons t l ih =>
      rw [enumerateRpsFrom]
      rcases List.mem_cons.mp hs with rfl | hs
      · rw [if_neg htext, if_neg hnew]
        exact List.mem_cons_self
      · split
        · exact ih hs hnew
        · split
          · exact ih hs hnew
          · by_cases hsame : s.credential.rpIdHash = t.credential.rpIdHash
            · rw [hsame]
              exact List.mem_cons_self
            · refine List.mem_cons_of_mem _ (ih hs ?_)
              intro hmem
              rcases List.mem_cons.mp hmem with heq | hmem
              · exact hsame heq
              · exact hnew hmem

/-- A relying party, named by its hash, has a credential with a textual id. -/
def HasRp (e : StorageEngine β) (hash : Bytes) : Prop :=
  ∃ s ∈ e.records, s.credential.rpId ≠ "" ∧ s.credential.rpIdHash = hash

theorem mem_enumerateRps_iff {e : StorageEngine β} {hash : Bytes} :
    hash ∈ e.enumerateRps.map (·.2) ↔ e.HasRp hash := by
  constructor
  · intro h
    obtain ⟨rp, hrp, rfl⟩ := List.mem_map.mp h
    obtain ⟨-, s, hs, htext, rfl⟩ := mem_enumerateRpsFrom hrp
    exact ⟨s, hs, htext, rfl⟩
  · rintro ⟨s, hs, htext, rfl⟩
    exact mem_hashes_enumerateRpsFrom hs htext List.not_mem_nil

/-- The hashes of the relying parties, each of them once. -/
def rpHashes (e : StorageEngine β) : List Bytes :=
  ((e.records.filter fun s => s.credential.rpId ≠ "").map (·.credential.rpIdHash)).dedup

theorem length_enumerateRps (e : StorageEngine β) :
    e.enumerateRps.length = e.rpHashes.length := by
  rw [← List.length_map (·.2)]
  refine List.Perm.length_eq ((List.perm_ext_iff_of_nodup (nodup_enumerateRpsFrom [] _)
    (List.nodup_dedup _)).mpr fun hash => ?_)
  rw [List.mem_dedup]
  refine mem_enumerateRps_iff.trans ((Iff.intro ?_ ?_).trans List.mem_map.symm)
  · rintro ⟨s, hs, htext, rfl⟩
    exact ⟨s, List.mem_filter.mpr ⟨hs, decide_eq_true htext⟩, rfl⟩
  · rintro ⟨s, hs, rfl⟩
    obtain ⟨hmem, htext⟩ := List.mem_filter.mp hs
    exact ⟨s, hmem, of_decide_eq_true htext, rfl⟩

/-! ## Credentials of a relying party -/

/-- No two records have the same id. -/
theorem nodup_records {e : StorageEngine β} (hk : e.Keyed) :
    (e.records.map (·.credential.credentialId)).Nodup := by
  have hkeys : e.records.map (·.credential.credentialId) = e.credentials.keys := by
    rw [records, List.map_map, ← Std.ExtTreeMap.map_fst_toList_eq_keys]
    refine List.map_congr_left fun entry hentry => ?_
    exact hk entry.1 entry.2 (Std.ExtTreeMap.mem_toList_iff_getElem?_eq_some.mp hentry)
  rw [hkeys]
  exact Std.ExtTreeMap.nodup_keys

/-- The records of a relying party. -/
def recordsOf (e : StorageEngine β) (rpHash : Bytes) : List StoredCredential :=
  e.records.filter fun s => s.credential.rpIdHash = rpHash

/-- What opens of a list of records, with their ids in the order of the list. -/
theorem sublist_unlock (crypto : CryptoEngine) (l : List StoredCredential) :
    ((l.filterMap fun s => (unlock crypto s).toOption).map (·.credentialId)).Sublist
      (l.map (·.credential.credentialId)) := by
  induction l with
  | nil => exact List.Sublist.slnil
  | cons s l ih =>
      rw [List.filterMap_cons, List.map_cons]
      cases hopen : unlock crypto s with
      | error error => exact ih.cons _
      | ok credential =>
          obtain ⟨key, rfl⟩ := unlock_ok hopen
          exact ih.cons_cons _

theorem length_unlock {crypto : CryptoEngine} {l : List StoredCredential}
    (h : ∀ s ∈ l, (unlock crypto s).isOk = true) :
    (l.filterMap fun s => (unlock crypto s).toOption).length = l.length := by
  induction l with
  | nil => rfl
  | cons s l ih =>
      have hrest := ih fun t ht => h t (List.mem_cons_of_mem s ht)
      have hopen := h s List.mem_cons_self
      rw [List.filterMap_cons]
      cases hs : unlock crypto s with
      | error error =>
          rw [hs] at hopen
          cases hopen
      | ok credential => exact congrArg (· + 1) hrest

theorem nodup_findCredentials {e : StorageEngine β} (hk : e.Keyed) (crypto : CryptoEngine)
    (rpHash : Bytes) :
    ((e.findCredentialsByRpHash rpHash crypto).map (·.credentialId)).Nodup :=
  (nodup_records hk).sublist
    ((sublist_unlock crypto _).trans (List.filter_sublist.map _))

/-- A credential is found under the hash of its record, exactly if the record opens. -/
theorem mem_ids_findCredentials [StorageBackend β] {e : StorageEngine β} (hk : e.Keyed)
    {crypto : CryptoEngine} {rpHash id : Bytes} :
    id ∈ (e.findCredentialsByRpHash rpHash crypto).map (·.credentialId) ↔
      ∃ s, e.credentials[id]? = some s ∧ s.credential.rpIdHash = rpHash ∧
        (unlock crypto s).isOk = true := by
  rw [List.mem_map]
  constructor
  · rintro ⟨c, hc, rfl⟩
    obtain ⟨s, hs, hhash, hopen⟩ := mem_findCredentialsByRpHash.mp hc
    obtain ⟨id, hid⟩ := mem_records hs
    have hok : (unlock crypto s).isOk = true := by
      rw [hopen]
      rfl
    obtain ⟨key, rfl⟩ := unlock_ok hopen
    have hsame : s.credential.credentialId = id := hk id s hid
    exact ⟨s, by rw [hsame]; exact hid, hhash, hok⟩
  · rintro ⟨s, hid, hhash, hok⟩
    cases hopen : unlock crypto s with
    | error error =>
        rw [hopen] at hok
        cases hok
    | ok c =>
        refine ⟨c, mem_findCredentialsByRpHash.mpr ⟨s, mem_records_iff.mpr ⟨id, hid⟩, hhash, hopen⟩,
          ?_⟩
        obtain ⟨key, rfl⟩ := unlock_ok hopen
        exact hk id s hid

end StorageEngine

/-! ## Steps of an enumeration -/

namespace Auth

variable {β : Type} {α γ ρ : Type}

/-- The steps answer with the entries of the list and then fail, from whatever state, as long as it
has kept where the enumeration stands. -/
def Delivers (next : Ctap β ρ) (get : Auth β → Option (Enumeration α)) (wrap : γ → ρ) :
    List γ → Option (Enumeration α) → Prop
  | [], state => ∀ a, get a = state → (next.run a).1 = .error .noCredentials
  | entry :: entries, state => ∃ state', (∀ a, get a = state →
      (next.run a).1 = .ok (wrap entry) ∧ get (next.run a).2 = state') ∧
        Delivers next get wrap entries state'

/-- The first command answers with the first entry, and the steps with the others; with no entry it
fails. -/
def Enumerates (start next : Ctap β ρ) (get : Auth β → Option (Enumeration α)) (wrap : γ → ρ)
    (a : Auth β) : List γ → Prop
  | [] => (start.run a).1 = .error .noCredentials
  | entry :: entries =>
      (start.run a).1 = .ok (wrap entry) ∧ Delivers next get wrap entries (get (start.run a).2)

section

variable {get : Auth β → Option (Enumeration α)} {put : Option (Enumeration α) → Auth β → Auth β}
  (hget : ∀ state a, get (put state a) = state) (wrap : γ → ρ) (entry : α → Nat → γ)

include hget

/-- The entries that are delivered are those after the position. -/
theorem delivers_iff (a : Auth β) (hwrap : Function.Injective wrap) {next : Ctap β ρ}
    (hnext : next = nextInEnumeration get put >>= fun item => pure (wrap (entry item.1 item.2)))
    {items : List α} {i : Nat} {entries : List γ} :
    Delivers next get wrap entries (some ⟨items, i⟩) ↔
      entries = (items.drop (i + 1)).map fun item => entry item items.length := by
  have hrun : ∀ i, ∀ b : Auth β, get b = some ⟨items, i⟩ → next.run b =
      items[i + 1]?.elim (.error .noCredentials, put none b) fun item =>
        (.ok (wrap (entry item items.length)), put (some ⟨items, i + 1⟩) b) := by
    intro i b hb
    have hstate : (Prog.check fun a : Auth β =>
        (get a).elim (.error Ctap2Error.invalidState) .ok).run b = (.ok ⟨items, i⟩, b) :=
      Prod.ext (by rw [Prog.run_check, hb]; rfl) rfl
    subst hnext
    rw [nextInEnumeration, Prog.bind_bind, Prog.run_bind_of_ok hstate]
    cases items[i + 1]? <;> rfl
  induction entries generalizing i with
  | nil =>
      have hstart := hrun i (put (some ⟨items, i⟩) a) (hget _ a)
      constructor
      · intro hend
        have hlast := hend _ (hget (some ⟨items, i⟩) a)
        cases hitem : items[i + 1]? with
        | none => rw [List.drop_eq_nil_of_le (List.getElem?_eq_none_iff.mp hitem), List.map_nil]
        | some item =>
            rw [hstart, hitem] at hlast
            cases hlast
      · intro hnil b hb
        have hnone : items[i + 1]? = none :=
          List.getElem?_eq_none_iff.mpr
            (List.drop_eq_nil_iff.mp (List.map_eq_nil_iff.mp hnil.symm))
        rw [hrun i b hb, hnone, Option.elim_none]
  | cons first entries ih =>
      constructor
      · rintro ⟨state', hstep, hrest⟩
        obtain ⟨hfirst, hstate⟩ := hstep _ (hget (some ⟨items, i⟩) a)
        rw [hrun i _ (hget _ a)] at hfirst hstate
        cases hitem : items[i + 1]? with
        | none =>
            rw [hitem] at hfirst
            cases hfirst
        | some item =>
            rw [hitem, Option.elim_some] at hfirst hstate
            obtain ⟨hlt, rfl⟩ := List.getElem?_eq_some_iff.mp hitem
            rw [← hstate, hget] at hrest
            rw [List.drop_eq_getElem_cons hlt, List.map_cons, ← ih.mp hrest,
              hwrap (Except.ok.inj hfirst)]
      · intro hentries
        cases hitem : items[i + 1]? with
        | none =>
            rw [List.drop_eq_nil_of_le (List.getElem?_eq_none_iff.mp hitem),
              List.map_nil] at hentries
            cases hentries
        | some item =>
            obtain ⟨hlt, rfl⟩ := List.getElem?_eq_some_iff.mp hitem
            rw [List.drop_eq_getElem_cons hlt, List.map_cons] at hentries
            obtain ⟨rfl, hrest⟩ := List.cons.inj hentries
            refine ⟨some ⟨items, i + 1⟩, fun b hb => ?_, ih.mpr hrest⟩
            rw [hrun i b hb, hitem]
            exact ⟨rfl, hget _ b⟩

variable (put)

/-- An enumeration of a list answers with its items, in order, and with how many they are. -/
theorem enumerates_iff (a : Auth β) (hwrap : Function.Injective wrap) {start next : Ctap β ρ}
    (items : List α)
    (hstart : start.run a = (beginEnumeration put items >>= fun first =>
      pure (wrap (entry first items.length))).run a)
    (hnext : next = nextInEnumeration get put >>= fun item => pure (wrap (entry item.1 item.2)))
    {entries : List γ} :
    Enumerates start next get wrap a entries ↔
      entries = items.map fun item => entry item items.length := by
  rcases items with _ | ⟨first, items⟩
  · have hrun : start.run a = (.error .noCredentials, a) := hstart
    rcases entries with _ | ⟨x, entries⟩
    · exact iff_of_true (congrArg Prod.fst hrun) rfl
    · refine iff_of_false (fun h => ?_) (by simp)
      have hfirst := h.1
      rw [hrun] at hfirst
      cases hfirst
  · have hrun : start.run a = (.ok (wrap (entry first (items.length + 1))),
        put (some ⟨first :: items, 0⟩) a) := hstart
    rcases entries with _ | ⟨x, entries⟩
    · refine iff_of_false (fun h => ?_) (by simp)
      have hfail : (start.run a).1 = .error .noCredentials := h
      rw [hrun] at hfail
      cases hfail
    · show (start.run a).1 = .ok (wrap x) ∧ Delivers next get wrap entries (get (start.run a).2) ↔ _
      rw [hrun, hget, delivers_iff hget wrap entry a hwrap hnext, List.map_cons, List.cons.injEq,
        Except.ok.injEq]
      exact and_congr_left' ⟨fun h => (hwrap h).symm, fun h => congrArg wrap h.symm⟩

end

/-! ## The three enumerations -/

/-- What an enumeration is for: it answers with entries that announce their number, and lists each
key that is wanted once, in an entry that shows it truly. -/
def Lists {κ : Type} (start next : Ctap β ρ) (get : Auth β → Option (Enumeration α)) (wrap : γ → ρ)
    (key : γ → κ) (total : γ → Nat) (wanted : κ → Prop) (truly : γ → Prop) (a : Auth β) : Prop :=
  ∃ entries : List γ, Enumerates start next get wrap a entries ∧
    (∀ entry ∈ entries, total entry = entries.length) ∧
    (entries.map key).Nodup ∧ (∀ k, k ∈ entries.map key ↔ wanted k) ∧
    ∀ entry ∈ entries, truly entry

/-- EnumerateRPs lists the relying parties. -/
def ListsRps (a : Auth β) : Prop :=
  Lists handleEnumerateRpsInitial handleEnumerateRpsNext (fun a => a.enumerateRpsState) id
    EnumerateRpsResponse.rpHash EnumerateRpsResponse.totalRps a.storage.HasRp
    (fun entry => ∃ s ∈ a.storage.records, s.credential.rpId ≠ "" ∧
      entry.rp.id = s.credential.rpId ∧ entry.rpHash = s.credential.rpIdHash) a

/-- enumerateRPs of CredentialManagement lists them. -/
def ListsManagedRps (a : Auth β) : Prop :=
  Lists handleCredMgmtEnumerateRpsBegin handleCredMgmtEnumerateRpsNext
    (fun a => a.credMgmtRpsState) CtapResponse.enumerateRpsEntry
    EnumerateRpsEntryResponse.rpIdHash EnumerateRpsEntryResponse.totalRps a.storage.HasRp
    (fun entry => ∃ s ∈ a.storage.records, s.credential.rpId ≠ "" ∧
      entry.rp.id = s.credential.rpId ∧ entry.rpIdHash = s.credential.rpIdHash) a

/-- enumerateCredentials lists the credentials of a relying party. -/
def ListsCredentials (a : Auth β) (rpHash : Bytes) : Prop :=
  Lists (handleCredMgmtEnumerateCredsBegin rpHash) handleCredMgmtEnumerateCredsNext
    (fun a => a.credMgmtCredsState) CtapResponse.enumerateCredentialsEntry
    (fun entry => entry.credentialId.id) EnumerateCredentialsEntryResponse.totalCredentials
    (fun id => ∃ s, a.storage.credentials[id]? = some s ∧ s.credential.rpIdHash = rpHash)
    (fun entry => ∃ s ∈ a.storage.records, ∃ n, s.credential.rpIdHash = rpHash ∧
      entry = buildEnumerateCredEntry s.credential n) a

/-- Everything that is stored is listed. -/
structure Complete (a : Auth β) : Prop where
  rps : ListsRps a
  managedRps : ListsManagedRps a
  credentials : ∀ rpHash, ListsCredentials a rpHash

/-- There are fewer relying parties than a byte counts, the credentials of none of them are more
than 32 bits count, and they open. -/
structure Countable (a : Auth β) : Prop where
  rps : a.storage.rpHashes.length < 2 ^ 8
  credentials : ∀ rpHash,
    (a.storage.recordsOf rpHash).length < 2 ^ 32
  opens : ∀ s ∈ a.storage.records, (StorageEngine.unlock a.crypto s).isOk = true

/-- A count that is announced truly is in the range of its field. -/
theorem lt_of_announced {γ : Type} {n width : Nat} {entries : List γ} {total : γ → Nat}
    (hlength : entries.length = n) (hwidth : 0 < width)
    (hentries : ∀ entry ∈ entries, total entry = n % width)
    (htotal : ∀ entry ∈ entries, total entry = entries.length) : n < width := by
  rcases entries with _ | ⟨entry, entries⟩
  · rw [← hlength]
    exact hwidth
  · have hannounced := (hentries entry List.mem_cons_self).symm.trans
      (htotal entry List.mem_cons_self)
    rw [hlength] at hannounced
    exact hannounced ▸ Nat.mod_lt n hwidth

/-- An enumeration of relying parties lists them exactly where its field can count them. -/
theorem lists_rps_iff {a : Auth β} {start next : Ctap β ρ}
    {get : Auth β → Option (Enumeration (String × Bytes))} {wrap : γ → ρ}
    {entry : String × Bytes → Nat → γ} {hash : γ → Bytes} {name : γ → String} {total : γ → Nat}
    {width : Nat} (hwidth : 0 < width)
    (henumerates : ∀ entries, Enumerates start next get wrap a entries ↔
      entries = a.storage.enumerateRps.map fun rp => entry rp a.storage.enumerateRps.length)
    (hhash : ∀ rp n, hash (entry rp n) = rp.2) (hname : ∀ rp n, name (entry rp n) = rp.1)
    (htotal : ∀ rp n, total (entry rp n) = n % width) :
    Lists start next get wrap hash total a.storage.HasRp
      (fun entry => ∃ s ∈ a.storage.records, s.credential.rpId ≠ "" ∧
        name entry = s.credential.rpId ∧ hash entry = s.credential.rpIdHash) a ↔
      a.storage.rpHashes.length < width := by
  rw [← StorageEngine.length_enumerateRps]
  have hkeys : (a.storage.enumerateRps.map fun rp =>
      entry rp a.storage.enumerateRps.length).map hash = a.storage.enumerateRps.map (·.2) := by
    rw [List.map_map]
    exact List.map_congr_left fun rp _ => hhash rp _
  constructor
  · rintro ⟨entries, hentries, hannounced, -⟩
    obtain rfl := (henumerates entries).mp hentries
    refine lt_of_announced (List.length_map _) hwidth (fun x hx => ?_) hannounced
    obtain ⟨rp, -, rfl⟩ := List.mem_map.mp hx
    exact htotal rp _
  · intro hlt
    refine ⟨_, (henumerates _).mpr rfl, fun x hx => ?_, ?_, fun k => ?_, fun x hx => ?_⟩
    · obtain ⟨rp, -, rfl⟩ := List.mem_map.mp hx
      rw [htotal, Nat.mod_eq_of_lt hlt, List.length_map]
    · rw [hkeys]
      exact StorageEngine.nodup_enumerateRpsFrom [] _
    · rw [hkeys]
      exact StorageEngine.mem_enumerateRps_iff
    · obtain ⟨rp, hrp, rfl⟩ := List.mem_map.mp hx
      obtain ⟨-, s, hs, htext, rfl⟩ := StorageEngine.mem_enumerateRpsFrom hrp
      exact ⟨s, hs, htext, hname _ _, hhash _ _⟩

theorem enumerates_rps (a : Auth β) (entries : List EnumerateRpsResponse) :
    Enumerates handleEnumerateRpsInitial handleEnumerateRpsNext (fun a => a.enumerateRpsState) id a
      entries ↔ entries = a.storage.enumerateRps.map fun rp =>
        enumerateRpsResponse rp a.storage.enumerateRps.length :=
  enumerates_iff putEnumerateRps (fun _ _ => rfl) id enumerateRpsResponse a
    Function.injective_id a.storage.enumerateRps rfl rfl

theorem enumerates_managedRps (a : Auth β) (entries : List EnumerateRpsEntryResponse) :
    Enumerates handleCredMgmtEnumerateRpsBegin handleCredMgmtEnumerateRpsNext
      (fun a => a.credMgmtRpsState) CtapResponse.enumerateRpsEntry a entries ↔
      entries = a.storage.enumerateRps.map fun rp =>
        enumerateRpsEntry rp a.storage.enumerateRps.length :=
  enumerates_iff putCredMgmtRps (fun _ _ => rfl) CtapResponse.enumerateRpsEntry
    enumerateRpsEntry a (fun _ _ h => CtapResponse.enumerateRpsEntry.inj h)
    a.storage.enumerateRps rfl rfl

theorem enumerates_credentials (a : Auth β) (rpHash : Bytes)
    (entries : List EnumerateCredentialsEntryResponse) :
    Enumerates (handleCredMgmtEnumerateCredsBegin rpHash) handleCredMgmtEnumerateCredsNext
      (fun a => a.credMgmtCredsState) CtapResponse.enumerateCredentialsEntry a entries ↔
      entries = (a.storage.findCredentialsByRpHash rpHash a.crypto).map fun credential =>
        buildEnumerateCredEntry credential
          (a.storage.findCredentialsByRpHash rpHash a.crypto).length :=
  enumerates_iff putCredMgmtCreds (fun _ _ => rfl) CtapResponse.enumerateCredentialsEntry
    buildEnumerateCredEntry a (fun _ _ h => CtapResponse.enumerateCredentialsEntry.inj h)
    (a.storage.findCredentialsByRpHash rpHash a.crypto) rfl rfl

/-- enumerateCredentials lists the credentials of a relying party exactly where they open and are no
more than its field can count. -/
theorem listsCredentials_iff [StorageBackend β] {a : Auth β} (hk : a.storage.Keyed)
    (rpHash : Bytes) :
    ListsCredentials a rpHash ↔ (a.storage.recordsOf rpHash).length < 2 ^ 32 ∧
      ∀ s ∈ a.storage.recordsOf rpHash, (StorageEngine.unlock a.crypto s).isOk = true := by
  have hkeys : ((a.storage.findCredentialsByRpHash rpHash a.crypto).map fun credential =>
      buildEnumerateCredEntry credential
        (a.storage.findCredentialsByRpHash rpHash a.crypto).length).map
        (fun entry => entry.credentialId.id) =
      (a.storage.findCredentialsByRpHash rpHash a.crypto).map (·.credentialId) := by
    rw [List.map_map]
    rfl
  constructor
  · rintro ⟨entries, hentries, hannounced, -, hwanted, -⟩
    obtain rfl := (enumerates_credentials a rpHash entries).mp hentries
    have hopens : ∀ s ∈ a.storage.recordsOf rpHash,
        (StorageEngine.unlock a.crypto s).isOk = true := by
      intro s hs
      obtain ⟨hmem, hhash⟩ := List.mem_filter.mp hs
      obtain ⟨id, hid⟩ := StorageEngine.mem_records hmem
      have hlisted := (hwanted id).mpr ⟨s, hid, of_decide_eq_true hhash⟩
      rw [hkeys] at hlisted
      obtain ⟨s', hid', -, hok⟩ := (StorageEngine.mem_ids_findCredentials hk).mp hlisted
      obtain rfl := Option.some.inj (hid.symm.trans hid')
      exact hok
    have hlength : (a.storage.findCredentialsByRpHash rpHash a.crypto).length =
        (a.storage.recordsOf rpHash).length := StorageEngine.length_unlock hopens
    refine ⟨?_, hopens⟩
    rw [← hlength]
    refine lt_of_announced (List.length_map _) (by decide) (fun x hx => ?_) hannounced
    obtain ⟨credential, -, rfl⟩ := List.mem_map.mp hx
    rfl
  · rintro ⟨hlt, hopens⟩
    have hlength : (a.storage.findCredentialsByRpHash rpHash a.crypto).length =
        (a.storage.recordsOf rpHash).length := StorageEngine.length_unlock hopens
    refine ⟨_, (enumerates_credentials a rpHash _).mpr rfl, fun x hx => ?_, ?_, fun id => ?_,
      fun x hx => ?_⟩
    · obtain ⟨credential, -, rfl⟩ := List.mem_map.mp hx
      rw [List.length_map]
      exact Nat.mod_eq_of_lt (hlength ▸ hlt)
    · rw [hkeys]
      exact StorageEngine.nodup_findCredentials hk a.crypto rpHash
    · rw [hkeys, StorageEngine.mem_ids_findCredentials hk]
      refine exists_congr fun s => and_congr_right fun hid => and_iff_left_of_imp fun hhash => ?_
      exact hopens s (List.mem_filter.mpr
        ⟨StorageEngine.mem_records_iff.mpr ⟨id, hid⟩, decide_eq_true hhash⟩)
    · obtain ⟨credential, hc, rfl⟩ := List.mem_map.mp hx
      obtain ⟨s, hs, hhash, hopen⟩ := StorageEngine.mem_findCredentialsByRpHash.mp hc
      obtain ⟨key, rfl⟩ := StorageEngine.unlock_ok hopen
      exact ⟨s, hs, _, hhash, rfl⟩

theorem listsRps_iff {a : Auth β} : ListsRps a ↔ a.storage.rpHashes.length < 2 ^ 8 :=
  lists_rps_iff (by decide) (enumerates_rps a) (fun _ _ => rfl) (fun _ _ => rfl)
    fun _ _ => rfl

theorem listsManagedRps_iff {a : Auth β} :
    ListsManagedRps a ↔ a.storage.rpHashes.length < 2 ^ 32 :=
  lists_rps_iff (by decide) (enumerates_managedRps a) (fun _ _ => rfl) (fun _ _ => rfl)
    fun _ _ => rfl

/-- On every engine, all that is stored is listed and counted exactly where it can be. -/
theorem complete_iff [StorageBackend β] {codec : Codec StoredCredential} {a : Auth β}
    (hreached : StorageEngine.Reached codec a.crypto a.storage) : Complete a ↔ Countable a := by
  have hk := hreached.keyed
  constructor
  · rintro ⟨hlists, -, hcredentials⟩
    refine ⟨listsRps_iff.mp hlists, fun rpHash => ((listsCredentials_iff hk rpHash).mp
      (hcredentials rpHash)).1, fun s hs => ?_⟩
    exact ((listsCredentials_iff hk _).mp (hcredentials s.credential.rpIdHash)).2 s
      (List.mem_filter.mpr ⟨hs, decide_eq_true rfl⟩)
  · rintro ⟨hfew, hcredentials, hopens⟩
    refine ⟨listsRps_iff.mpr hfew, listsManagedRps_iff.mpr (Nat.lt_trans hfew (by decide)),
      fun rpHash => ?_⟩
    exact (listsCredentials_iff hk rpHash).mpr
      ⟨hcredentials rpHash, fun s hs => hopens s (List.mem_filter.mp hs).1⟩

end Auth

/-! ## As many relying parties as a byte has values -/

namespace StorageEngine

/-- The credential of a relying party of its own. -/
def ownRpCredential (n : UInt8) : Credential :=
  { shortCredential n 0 with
    rpIdHash := List.replicate 31 0 ++ [n]
    rpId := toString n ++ ".example.com" }

/-- An engine in memory with the credentials of that many relying parties. -/
def manyRps : Nat → StorageEngine KvMap
  | 0 => new
  | n + 1 => ((runOp unusedCodec oneKeyCrypto
      (.storeCredential (ownRpCredential n.toUInt8) (List.replicate 12 0))).run (manyRps n)).2

theorem reached_manyRps (n : Nat) : Reached unusedCodec oneKeyCrypto (manyRps n) := by
  induction n with
  | zero => exact .inMemory
  | succ n ih => exact .ran _ ih

/-- A credential at rest under the key of zeros. -/
def ownRpStored (n : UInt8) : StoredCredential where
  credential := { ownRpCredential n with privateKey := [] }
  encryptedPrivateKey := oneKeyCrypto.oneKeySealed
  nonce := List.replicate 12 0

/-- In memory and without a limit, a credential is just added. -/
theorem manyRps_succ (n : Nat) : ∃ wearCounters,
    manyRps n = { new with credentials := (manyRps n).credentials, wearCounters := wearCounters } ∧
      (manyRps (n + 1)).credentials =
        (manyRps n).credentials.insert [n.toUInt8] (ownRpStored n.toUInt8) := by
  induction n with
  | zero => exact ⟨_, rfl, rfl⟩
  | succ n ih =>
      obtain ⟨wearCounters, hn, -⟩ := ih
      have hsucc : ∃ wearCounters, manyRps (n + 1) =
          { new with
            credentials := (manyRps (n + 1)).credentials, wearCounters := wearCounters } := by
        rw [manyRps, hn]
        exact ⟨_, rfl⟩
      obtain ⟨wearCounters', hsucc⟩ := hsucc
      refine ⟨wearCounters', hsucc, ?_⟩
      rw [manyRps, hsucc]
      rfl

theorem toUInt8_inj {i j : Nat} (hi : i < 256) (hj : j < 256) (h : i.toUInt8 = j.toUInt8) :
    i = j := by
  have hbyte : i % 256 = j % 256 := congrArg UInt8.toNat h
  rwa [Nat.mod_eq_of_lt hi, Nat.mod_eq_of_lt hj] at hbyte

theorem getElem?_manyRps {i n : Nat} (hi : i < n) (hn : n ≤ 256) :
    (manyRps n).credentials[[i.toUInt8]]? = some (ownRpStored i.toUInt8) := by
  induction n with
  | zero => cases hi
  | succ n ih =>
      obtain ⟨-, -, hafter⟩ := manyRps_succ n
      rw [hafter, getElem?_insert_ite]
      rcases Nat.lt_succ_iff_lt_or_eq.mp hi with hlt | rfl
      · rw [if_neg, ih hlt (Nat.le_of_succ_le hn)]
        intro heq
        exact Nat.ne_of_lt hlt (toUInt8_inj (Nat.lt_trans hlt hn) hn (List.cons.inj heq).1)
      · rw [if_pos rfl]

/-- There are as many relying parties as a byte has values. -/
theorem length_manyRps : 256 ≤ (manyRps 256).rpHashes.length := by
  have hnodup : ((List.range 256).map fun n => (ownRpCredential n.toUInt8).rpIdHash).Nodup := by
    refine List.nodup_range.map_on fun i hi j hj heq => ?_
    exact toUInt8_inj (List.mem_range.mp hi) (List.mem_range.mp hj)
      (List.cons.inj (List.append_cancel_left heq)).1
  have hsub : ((List.range 256).map fun n => (ownRpCredential n.toUInt8).rpIdHash) ⊆
      (manyRps 256).rpHashes := by
    intro hash hhash
    obtain ⟨i, hi, rfl⟩ := List.mem_map.mp hhash
    have hstored : ownRpStored i.toUInt8 ∈ (manyRps 256).records :=
      mem_records_iff.mpr ⟨_, getElem?_manyRps (List.mem_range.mp hi) (Nat.le_refl _)⟩
    have htext : (ownRpStored i.toUInt8).credential.rpId ≠ "" := by
      simp [ownRpStored, ownRpCredential]
    exact List.mem_dedup.mpr (List.mem_map.mpr
      ⟨_, List.mem_filter.mpr ⟨hstored, decide_eq_true htext⟩, rfl⟩)
  have hlength := (List.subperm_of_subset hnodup hsub).length_le
  rwa [List.length_map, List.length_range] at hlength

end StorageEngine

namespace Auth

/-- A device over a storage engine. -/
def crowdedDevice (storage : StorageEngine KvMap) : Auth KvMap :=
  .new (List.replicate 16 0) StorageEngine.oneKeyCrypto storage (fun n _ => UInt8.ofNat (n + 1))
    fun n => n

/-- EnumerateRPs does not announce 256 relying parties. -/
theorem crowded_not_complete : ¬∀ a : Auth KvMap,
    StorageEngine.Reached unusedCodec a.crypto a.storage → Complete a := by
  intro hall
  have hfew : ∀ e : StorageEngine KvMap,
      StorageEngine.Reached unusedCodec StorageEngine.oneKeyCrypto e → e.rpHashes.length < 256 :=
    fun e he => listsRps_iff.mp (hall (crowdedDevice e) he).rps
  exact Nat.not_lt.mpr StorageEngine.length_manyRps (hfew _ (StorageEngine.reached_manyRps 256))

/-- A device with two of them lists both. -/
theorem complete_iff_two : Complete (crowdedDevice (StorageEngine.manyRps 2)) ↔
    Countable (crowdedDevice (StorageEngine.manyRps 2)) :=
  complete_iff (StorageEngine.reached_manyRps 2)

end Auth

end OpenKey
