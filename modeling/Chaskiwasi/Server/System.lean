import Chaskiwasi.Server.Messages
import Chaskiwasi.Server.Sample

/-!
# Who speaks as Wasi

A notice letter comes from the system contact, and the system contact is recognised by the From
address alone: filing and derivation answer the sentinel address with it before they consult any
row of the table.  A row can never be the system contact (`Table.no_sys`), so what the two readers
make of a message's From header is all there is to it: `wasi_iff` says that the arrival path keeps
a message for the system contact exactly when filing's reader reads the sentinel, and that a
response carries it as a letter of the system contact exactly when derivation's reader does.

The header is the sender's to write, and the exact extent of the protection is what the readers
make of it: mail is kept from speaking as Wasi exactly when neither of them finds the sentinel.
-/

namespace Chaskiwasi

variable [Runes]

/-- A From reading that names the system contact. -/
def ReadsSystem (sender : Option String) : Prop :=
  ∃ addr, sender = some addr ∧ IsSystem addr

/-- The arrival path's reading decides whether it keeps a message for the system contact. -/
lemma activeSender_id_iff {P : Pipeline} {t : Table} {raw : Raw} {contact : Contact}
    (h : activeSender P t raw = some contact) :
    contact.id = sysContactID ↔ ReadsSystem (P.headerFrom raw.data) := by
  obtain ⟨addr, hfrom, hres⟩ := Option.bind_eq_some_iff.1 h
  constructor
  · intro hid
    exact ⟨addr, hfrom, Table.isSystem_of_resolveLocked hres hid⟩
  · rintro ⟨addr', hfrom', hsys⟩
    obtain rfl := Option.some.inj (hfrom.symm.trans hfrom')
    rw [Table.resolveActive, Table.resolveLocked_of_isSystem hsys] at hres
    obtain rfl := Option.some.inj hres
    rfl

/-- Derivation's reading decides whether a letter is the system contact's. -/
lemma derive_contactID_iff {P : Pipeline} {t : Table} {raw : Raw} {letter : Letter}
    (h : P.derive t raw = .ok letter) :
    letter.contactID = sysContactID ↔ ReadsSystem (P.envelopeFrom raw.data) := by
  obtain ⟨addr, contact, hfrom, hres, hid⟩ := P.derive_eq_ok h
  rw [hid]
  constructor
  · intro hsys
    exact ⟨addr, hfrom, Table.isSystem_of_resolveLocked hres hsys⟩
  · rintro ⟨addr', hfrom', hsys⟩
    obtain rfl := Option.some.inj (hfrom.symm.trans hfrom')
    rw [Table.resolve, Table.resolveLocked_of_isSystem hsys] at hres
    obtain rfl := Option.some.inj hres
    rfl

/-! ## Along a run -/

variable {cfg : Config} {w w' w₀ : World} {acts : List Act}

/-- Every arrival kept so far was kept for the system contact exactly when filing read its
address. -/
def KeptByReading (P : Pipeline) (w : World) : Prop :=
  ∀ raw contactID, .kept raw contactID ∈ w.log →
    (contactID = sysContactID ↔ ReadsSystem (P.headerFrom raw.data))

lemma step_keptByReading {act : Act} (h : KeptByReading cfg.pipeline w)
    (hstep : step cfg w act = some w') : KeptByReading cfg.pipeline w' := by
  intro raw contactID hk
  rcases step_log_mem hstep hk with hk | hk
  · exact h raw contactID hk
  · cases hk with
    | pass reply fresh io caller pc n hpass hn =>
        cases hn with
        | kept raw rest full contact hsender => exact activeSender_id_iff hsender

/-- **Who speaks as Wasi.**  In every run, whatever the contact table and the order of steps: an
arrival is kept for the system contact exactly when filing's reader finds the sentinel address in
its From header, and a letter is the system contact's exactly when derivation's reader does. -/
theorem wasi_iff (hw : w₀.AtRest) (hrun : Run.run (step cfg) w₀ acts = some w) :
    KeptByReading cfg.pipeline w ∧ w.Sourced fun raw letter =>
      letter.contactID = sysContactID ↔ ReadsSystem (cfg.pipeline.envelopeFrom raw.data) := by
  refine Run.run_invariant (I := fun w => KeptByReading cfg.pipeline w ∧ w.Sourced fun raw letter =>
    letter.contactID = sysContactID ↔ ReadsSystem (cfg.pipeline.envelopeFrom raw.data))
    (fun s a s' hs hstep => ?_) ⟨?_, ?_, ?_⟩ hrun
  · refine ⟨step_keptByReading hs.1 hstep, step_sourced hs.2 ?_ hstep⟩
    intro k pc raw letter _ _ hderive
    exact derive_contactID_iff hderive
  · simp [KeptByReading, hw.log]
  · simp [hw.syncs]
  · simp [hw.log]

/-! ## Exactly which mail is kept from speaking as Wasi -/

/-- In no run is delivered mail with this text kept as an arrival from the system contact, or
carried by a response as its letter. -/
def NeverSpeaksAsWasi (cfg : Config) (data : List UInt8) : Prop :=
  ∀ (w₀ : World) (acts : List Act) (w : World), w₀.AtRest → Run.run (step cfg) w₀ acts = some w →
    (∀ raw contactID, .kept raw contactID ∈ w.log → raw.origin = .delivered → raw.data = data →
      contactID ≠ sysContactID) ∧
    ∀ k r, .responded k r ∈ w.log → List.Forall₂ (fun raw letter =>
      raw.origin = .delivered → raw.data = data → letter.contactID ≠ sysContactID)
        r.sources r.letters

section Spoofing

variable (cfg) (data : List UInt8)

omit [Runes] in
lemma one_pos_uid : (0 : UID) < 1 := by decide

/-- A message that has just been delivered into an empty INBOX. -/
def delivery : Raw where
  uid := 1
  internalDate := 0
  data := data
  origin := .delivered

/-- INBOX after the delivery. -/
def deliveredTo : Folder :=
  Folder.empty.push (delivery data) one_pos_uid

omit [Runes] in
lemma fetchAbove_deliveredTo {max : ℕ} (hmax : 0 < max) :
    (deliveredTo data).fetchAbove 0 max = [delivery data] := by
  have habove : (deliveredTo data).above 0 = [delivery data] := Folder.above_zero _
  rw [Folder.fetchAbove, habove, List.take_of_length_le]
  exact hmax

lemma step_delivery {w : World} (hempty : w.inbox = .empty) :
    step cfg w (.arrive (delivery data)) =
      some { w with inbox := deliveredTo data, log := .arrived (delivery data) :: w.log } := by
  have hlast : w.inbox.last < (delivery data).uid := by rw [hempty]; exact one_pos_uid
  simp only [step, dif_pos hlast]
  congr 2
  simp only [hempty, deliveredTo]

/-- Mail that filing reads the sentinel in is kept as an arrival from the system contact. -/
lemma not_neverSpeaks_of_headerFrom (h : ReadsSystem (cfg.pipeline.headerFrom data)) :
    ¬ NeverSpeaksAsWasi cfg data := by
  obtain ⟨addr, hfrom, hsys⟩ := h
  intro hnever
  let w₀ := Sample.world Sample.noContacts
  let w₁ : World := { w₀ with inbox := deliveredTo data, log := [.arrived (delivery data)] }
  let w₂ := w₁.goto (.job .handleNotify) .fetch
  let w₃ := (w₂.note .fetched).goto (.job .handleNotify) (.file [delivery data] false)
  let w₄ := ((w₃.note (.kept (delivery data) sysContactID)).raise 1).goto (.job .handleNotify)
    (.file [] false)
  have h₁ : step cfg w₀ (.arrive (delivery data)) = some w₁ := step_delivery cfg data rfl
  have h₂ : step cfg w₁ (.call .handleNotify) = some w₂ := rfl
  have h₃ : step cfg w₂ (.pass .ok 0 {}) = some w₃ := by
    have hraws : w₂.inbox.fetchAbove w₂.highWater arrivalBatchSize = [delivery data] :=
      fetchAbove_deliveredTo data (by decide)
    simp only [step, w₂, World.goto, passStep] at hraws ⊢
    simp only [hraws]
    rfl
  have h₄ : step cfg w₃ (.pass .ok 0 {}) = some w₄ := by
    have hsender : activeSender cfg.pipeline w₃.table (delivery data) = some sysContact :=
      Option.bind_eq_some_iff.2 ⟨addr, hfrom, Table.resolveLocked_of_isSystem hsys⟩
    simp only [step, w₃, World.goto, passStep] at hsender ⊢
    simp only [hsender]
    rfl
  have hrun : Run.run (step cfg) w₀
      [.arrive (delivery data), .call .handleNotify, .pass .ok 0 {}, .pass .ok 0 {}] = some w₄ := by
    simp only [Run.run_cons_eq_some, Run.run_nil]
    exact ⟨w₁, h₁, w₂, h₂, w₃, h₃, w₄, h₄, rfl⟩
  exact (hnever w₀ _ w₄ (Sample.world_atRest _) hrun).1 _ _ (List.mem_cons_self ..) rfl rfl rfl

/-- Mail that derivation reads the sentinel in is delivered as the system contact's letter, when
it arrives after the sync's reconciliation has listed INBOX. -/
lemma not_neverSpeaks_of_envelopeFrom (h : ReadsSystem (cfg.pipeline.envelopeFrom data)) :
    ¬ NeverSpeaksAsWasi cfg data := by
  obtain ⟨addr, hfrom, hsys⟩ := h
  intro hnever
  let cursor := encodeCursor 1 0
  have hcursor : cursorBoundary cursor 1 = some 0 := cursorBoundary_encodeCursor_self 1 0
  let w₀ := Sample.world Sample.noContacts
  let w₁ := w₀.setSync 0 (some (.start cursor))
  let w₂ := w₁.setSync 0 (some (.waiting cursor (some 0)))
  let w₃ := (w₂.goto (.sync 0) (.list (some 0))).setSync 0 (some (.reconciling cursor))
  let w₄ := w₃.goto (.sync 0) (.sweep (some 0) [] 0)
  let w₅ := (w₄.raise 0).finish (.sync 0) true
  let w₆ : World := { w₅ with inbox := deliveredTo data, log := [.arrived (delivery data)] }
  let w₇ := w₆.setSync 0 (some (.fetching 1 (some 0)))
  let budget := budgetFor cfg.budgetBytes 0
  let w₈ := w₇.setSync 0 (some (.deriving_ 1 ⟨budget, [], 0⟩ [] [delivery data] false))
  have h₁ : step cfg w₀ (.request 0 cursor) = some w₁ := rfl
  have h₂ : step cfg w₁ (.sync 0 .ok 0) = some w₂ := by
    have hstep : step cfg w₁ (.sync 0 .ok 0) =
        some (w₁.setSync 0 (some (.waiting cursor (cursorBoundary cursor 1)))) := rfl
    simp only [hstep, hcursor, w₂]
  have h₃ : step cfg w₂ (.sync 0 .ok 0) = some w₃ := rfl
  have h₄ : step cfg w₃ (.pass .ok 0 {}) = some w₄ := rfl
  have h₅ : step cfg w₄ (.pass .ok 0 {}) = some w₅ := rfl
  have h₆ : step cfg w₅ (.arrive (delivery data)) = some w₆ := step_delivery cfg data rfl
  have h₇ : step cfg w₆ (.sync 0 .ok 0) = some w₇ := by
    have hstep : step cfg w₆ (.sync 0 .ok 0) =
        some (w₆.setSync 0 (some (.fetching 1 (cursorBoundary cursor 1)))) := rfl
    simp only [hstep, hcursor, w₇]
  have h₈ : step cfg w₇ (.sync 0 .ok 0) = some w₈ := by
    have hraws : w₇.inbox.fetchAbove 0 fetchBatch = [delivery data] :=
      fetchAbove_deliveredTo data (by decide)
    have hstep : step cfg w₇ (.sync 0 .ok 0) =
        some (w₇.setSync 0 (some (.deriving_ 1 ⟨budget, [], 0⟩ []
          (w₇.inbox.fetchAbove 0 fetchBatch)
          ((w₇.inbox.fetchAbove 0 fetchBatch).length = fetchBatch)))) := rfl
    simp only [hstep, hraws, w₈]
    rfl
  obtain ⟨letter, hderive, hid⟩ : ∃ letter,
      cfg.pipeline.derive w₈.table (delivery data) = .ok letter ∧
        letter.contactID = sysContactID := by
    obtain ⟨env, henv, hhead⟩ := Option.bind_eq_some_iff.1 hfrom
    obtain ⟨addrs, haddrs, hfirst⟩ := Option.bind_eq_some_iff.1 hhead
    obtain ⟨rest, rfl⟩ := List.head?_eq_some_iff.1 hfirst
    have hres : w₈.table.resolve addr = some sysContact := Table.resolveLocked_of_isSystem hsys
    have henv' : cfg.pipeline.readEnvelope (delivery data).data = some env := henv
    simp only [Pipeline.derive, henv', haddrs, hres]
    exact ⟨_, rfl, rfl⟩
  let asm : Assembly := ⟨budget - letterSize cfg.encodedLength letter, [letter], 1⟩
  let w₉ := w₈.setSync 0 (some (.deriving_ 1 asm [delivery data] [] false))
  let w₁₀ := w₉.setSync 0 (some (.committing 1 asm [delivery data] false))
  let w₁₁ := (w₁₀.note (.responded 0 ⟨1, 1, [letter], false, [delivery data]⟩)).setSync 0 none
  have h₉ : step cfg w₈ (.sync 0 .ok 0) = some w₉ := by
    have hpc : w₈.syncs 0 = some (.deriving_ 1 ⟨budget, [], 0⟩ [] [delivery data] false) := rfl
    simp only [step, syncStep, hpc, hderive, assembleOne, ne_eq, not_true_eq_false, false_and,
      if_false, List.nil_append]
    rfl
  have h₁₀ : step cfg w₉ (.sync 0 .ok 0) = some w₁₀ := rfl
  have h₁₁ : step cfg w₁₀ (.sync 0 .ok 0) = some w₁₁ := rfl
  have hrun : Run.run (step cfg) w₀
      [.request 0 cursor, .sync 0 .ok 0, .sync 0 .ok 0, .pass .ok 0 {}, .pass .ok 0 {},
        .arrive (delivery data), .sync 0 .ok 0, .sync 0 .ok 0, .sync 0 .ok 0, .sync 0 .ok 0,
        .sync 0 .ok 0] = some w₁₁ := by
    simp only [Run.run_cons_eq_some, Run.run_nil]
    exact ⟨w₁, h₁, w₂, h₂, w₃, h₃, w₄, h₄, w₅, h₅, w₆, h₆, w₇, h₇, w₈, h₈, w₉, h₉, w₁₀, h₁₀,
      w₁₁, h₁₁, rfl⟩
  have hsources := (hnever w₀ _ w₁₁ (Sample.world_atRest _) hrun).2 0 _ (List.mem_cons_self ..)
  exact (List.forall₂_cons.1 hsources).1 rfl rfl hid

/-- **Only Wasi speaks as Wasi, exactly where no reader finds the sentinel.**  Delivered mail with
a given text is never kept as an arrival from the system contact and never delivered as its letter,
in any run and under any contact table, if and only if neither filing's nor derivation's reading of
its From header is the system address. -/
theorem neverSpeaksAsWasi_iff :
    NeverSpeaksAsWasi cfg data ↔
      ¬ ReadsSystem (cfg.pipeline.headerFrom data) ∧
        ¬ ReadsSystem (cfg.pipeline.envelopeFrom data) := by
  constructor
  · intro hnever
    exact ⟨fun h => not_neverSpeaks_of_headerFrom cfg data h hnever,
      fun h => not_neverSpeaks_of_envelopeFrom cfg data h hnever⟩
  · rintro ⟨hheader, henvelope⟩ w₀ acts w hw hrun
    obtain ⟨hkept, hsourced⟩ := wasi_iff hw hrun
    refine ⟨fun raw contactID hk _ hdata hid => ?_, fun k r hr => ?_⟩
    · exact hheader (hdata ▸ (hkept raw contactID hk).1 hid)
    · refine (hsourced.log k r hr).imp fun raw letter hiff _ hdata hid => ?_
      exact henvelope (hdata ▸ hiff.1 hid)

end Spoofing

omit [Runes]

/-- A stranger's message under the sentinel address. -/
def spoofed : Raw := Sample.delivered 1 "system@wasi.internal"

/-- The arrival path keeps it as a letter from Wasi. -/
theorem spoofed_speaksAsWasi :
    ¬ @NeverSpeaksAsWasi Sample.runes Sample.config spoofed.data := by
  intro hnever
  have heval : ((Run.run (@step Sample.runes Sample.config) (Sample.world Sample.noContacts)
      [.arrive spoofed, .call .handleNotify, Sample.passOk 0, Sample.passOk 0]).any
        fun w => decide (.kept spoofed sysContactID ∈ w.log)) = true := by
    decide +kernel
  obtain ⟨w, hrun, hkept⟩ := Run.exists_of_any heval
  exact (hnever _ _ w (Sample.world_atRest _) hrun).1 _ _ (of_decide_eq_true hkept) rfl rfl rfl

end Chaskiwasi
