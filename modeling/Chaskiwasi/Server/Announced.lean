import Chaskiwasi.Lib.Run
import Chaskiwasi.Mail.Graphemes
import Chaskiwasi.Server.Sample
import Chaskiwasi.Server.Toml

/-!
# What a response announces and how its letters were cut

The sync handler reads the current configuration from the watcher at the start of every request, and
announces its `max_letter_chars` to the device.  The letters of the same response are cut by the
deriver, which was given the limit once, when the server started.  The two are one number until a
reload changes the file's.

A `Server` is the running process as far as these two go.  Everything else a sync finds, from the
mailbox to the strip service, is part of the request's `Round`.
-/

namespace Chaskiwasi
namespace Announced

/-- What one sync finds: the contact table, the mailbox, the device's cursor, the size of the rest
of the response, and what the services answer for each message. -/
structure Round where
  table : Table
  inbox : Folder
  uidValidity : UID
  cursor : String
  skeletonLength : ℕ := 0
  pipeline : UID → Pipeline

/-- One response: the announced configuration and the letters. -/
structure Answer where
  config : DeviceConfig
  letters : List Letter
  /-- The letters that were derived on the way, each with the text it was cut from.  No procedure
  reads them. -/
  texts : List (Letter × String)
  deriving DecidableEq, Repr

/-- The running process. -/
structure Server where
  watcher : Watcher
  /-- The deriver's limit. -/
  maxLetterChars : ℤ
  /-- The responses so far, newest first.  No procedure reads them. -/
  answers : List Answer := []

inductive Act
  /-- The process stops, and starts again from the file. -/
  | restart (file : Option Toml) (stat : Option FileInfo)
  /-- The watcher polls the file. -/
  | poll (stat : Option FileInfo) (file : Option Toml)
  | sync (x : Round)

/-- `runServe`: the deriver is built from the configuration of the moment. -/
def start (file : Option Toml) (stat : Option FileInfo) : Option Server :=
  (Watcher.new file stat).map fun w =>
    { watcher := w, maxLetterChars := w.current.toml.maxLetterChars }

section Steps

variable [Runes] [Uniseg] (encodedLength : Letter → ℕ)

/-- The deriver's pipeline, with its limit. -/
def capped (P : Pipeline) (maxLetterChars : ℤ) : Pipeline :=
  { P with truncate := fun s => Graphemes.truncate s maxLetterChars }

/-- The deriver. -/
def derive (s : Server) (x : Round) (raw : Raw) : Except DeriveError Letter :=
  (capped (x.pipeline raw.uid) s.maxLetterChars).derive x.table raw

/-- The configuration block of a response. -/
def deviceConfig (t : Toml) : DeviceConfig where
  maxLetterChars := t.maxLetterChars
  syncIntervalS := t.intervalS
  rat := t.rat
  cover := t.cover

/-- The messages a sync looks at. -/
def looked (cfg : Toml) (x : Round) : List Raw :=
  (fetchFrom x.inbox cfg.resyncWindow.toNat (cursorBoundary x.cursor x.uidValidity)).1

/-- The letter of a message, with the text it was cut from. -/
def derivedText (s : Server) (x : Round) (raw : Raw) : Option (Letter × String) :=
  match derive s x raw with
  | .error _ => none
  | .ok l => some (l, (x.pipeline raw.uid).strippedBody raw)

/-- The handler: the response, where there is one. -/
def sync (s : Server) (x : Round) : Option Answer :=
  let cfg := s.watcher.current.toml
  match assembleLetters encodedLength (derive s x) x.inbox x.uidValidity cfg.resyncWindow.toNat
      (budgetFor cfg.budgetBytes x.skeletonLength) x.cursor with
  | .error _ => none
  | .ok round =>
      some
        { config := deviceConfig cfg
          letters := round.letters
          texts := (looked cfg x).filterMap (derivedText s x) }

/-- One step; a restart that finds no configuration to load is not possible. -/
def step (s : Server) : Act → Option Server
  | .restart file stat => (start file stat).map fun s' => { s' with answers := s.answers }
  | .poll stat file => some { s with watcher := s.watcher.reloadIfChanged stat file }
  | .sync x =>
      match sync encodedLength s x with
      | none => some s
      | some a => some { s with answers := a :: s.answers }

/-- Every letter is within the limit that the response announces, and one is marked truncated
exactly where it was cut to that limit. -/
def Answer.Agrees (a : Answer) : Prop :=
  ∀ l ∈ a.letters, (Graphemes.countClusters l.body : ℤ) ≤ a.config.maxLetterChars ∧
    ∀ text, (l, text) ∈ a.texts →
      (l.truncated = true ↔ a.config.maxLetterChars < Graphemes.countClusters text ∧
        l.body = Graphemes.firstClusters a.config.maxLetterChars.toNat text)

/-- A sync finds the limit it started with, or delivers no letter whose text is longer than the
smaller of the two. -/
def Uncut (s : Server) : Act → Prop
  | .restart .. | .poll .. => True
  | .sync x =>
      let announced := s.watcher.current.toml.maxLetterChars
      announced = s.maxLetterChars ∨
        ∀ a ∈ sync encodedLength s x, ∀ l ∈ a.letters, ∀ text, (l, text) ∈ a.texts →
          (Graphemes.countClusters text : ℤ) ≤ min announced s.maxLetterChars

end Steps

/-! ## One letter -/

section Letters

variable [Runes] [Uniseg] {encodedLength : Letter → ℕ} {s s' : Server} {x : Round} {a : Answer}
  {l : Letter} {text : String}

/-- A letter is its text, cut at the deriver's limit. -/
lemma body_of_mem_texts {raws : List Raw}
    (h : (l, text) ∈ raws.filterMap (derivedText s x)) :
    (l.body, l.truncated) = Graphemes.truncate text s.maxLetterChars := by
  obtain ⟨raw, -, hraw⟩ := List.mem_filterMap.1 h
  unfold derivedText at hraw
  cases hderive : derive s x raw with
  | error err => simp [hderive] at hraw
  | ok letter =>
      simp only [hderive, Option.some.injEq, Prod.mk.injEq] at hraw
      obtain ⟨rfl, rfl⟩ := hraw
      exact Pipeline.body_of_derive _ hderive

omit [Runes] in
/-- A text cut at one limit is what another limit asks for exactly if the limits are one, or the
text is within both. -/
lemma truncate_agrees_iff (text : String) {m n : ℕ} (hm : 0 < m) :
    (Graphemes.countClusters (Graphemes.truncate text m).1 ≤ n ∧
      ((Graphemes.truncate text m).2 = true ↔ n < Graphemes.countClusters text ∧
        (Graphemes.truncate text m).1 = Graphemes.firstClusters n text)) ↔
    n = m ∨ Graphemes.countClusters text ≤ min n m := by
  rw [Graphemes.countClusters_truncate text hm, Graphemes.truncate_snd text hm]
  constructor
  · rintro ⟨hle, hmarked⟩
    by_cases hcut : m < Graphemes.countClusters text
    · -- A text that was cut has as many clusters as the other limit's cut.
      obtain ⟨hlt, heq⟩ := hmarked.1 hcut
      have hcount := congrArg Graphemes.countClusters heq
      rw [Graphemes.countClusters_truncate text hm,
        Graphemes.countClusters_firstClusters] at hcount
      left
      omega
    · right
      omega
  · rintro (rfl | hshort)
    · refine ⟨min_le_left _ _, fun hcut => ⟨hcut, ?_⟩, And.left⟩
      rw [Graphemes.truncate_eq text hm, if_neg (by omega)]
    · refine ⟨by omega, fun hcut => ?_, fun hcut => ?_⟩
      · omega
      · omega

end Letters

/-! ## One response -/

section Answers

variable [Runes] [Uniseg] {encodedLength : Letter → ℕ} {s s' : Server} {x : Round} {a : Answer}

/-- Every letter of a response was cut from a text. -/
lemma exists_text (h : sync encodedLength s x = some a) {l : Letter} (hl : l ∈ a.letters) :
    ∃ text, (l, text) ∈ a.texts := by
  unfold sync at h
  dsimp only at h
  cases hround : assembleLetters encodedLength (derive s x) x.inbox x.uidValidity
      s.watcher.current.toml.resyncWindow.toNat
      (budgetFor s.watcher.current.toml.budgetBytes x.skeletonLength) x.cursor with
  | error err => simp [hround] at h
  | ok round =>
      simp only [hround, Option.some.injEq] at h
      obtain rfl := h
      obtain ⟨raw, hraw, hderive⟩ := mem_assembleFrom _ _ _ hround hl
      refine ⟨(x.pipeline raw.uid).strippedBody raw, List.mem_filterMap.2 ⟨raw, hraw, ?_⟩⟩
      rw [derivedText, hderive]

lemma config_of_sync (h : sync encodedLength s x = some a) :
    a.config = deviceConfig s.watcher.current.toml ∧
      ∀ l text, (l, text) ∈ a.texts →
        (l.body, l.truncated) = Graphemes.truncate text s.maxLetterChars := by
  unfold sync at h
  dsimp only at h
  split at h
  · cases h
  · obtain rfl := Option.some.inj h
    exact ⟨rfl, fun l text hmem => body_of_mem_texts hmem⟩

/-- Exactly when a response agrees with itself. -/
theorem agrees_iff (hm : 0 < s.maxLetterChars) (h : sync encodedLength s x = some a) :
    a.Agrees ↔ Uncut encodedLength s (.sync x) := by
  obtain ⟨hconfig, htexts⟩ := config_of_sync h
  obtain ⟨m, hm'⟩ := Int.eq_ofNat_of_zero_le (le_of_lt hm)
  obtain ⟨n, hn'⟩ := Int.eq_ofNat_of_zero_le (le_of_lt s.watcher.current.maxLetterChars_pos)
  have hannounced : a.config.maxLetterChars = n := by rw [hconfig, ← hn']; rfl
  have hletter : ∀ l text, (l, text) ∈ a.texts →
      (((Graphemes.countClusters l.body : ℤ) ≤ n ∧
        (l.truncated = true ↔ (n : ℤ) < Graphemes.countClusters text ∧
          l.body = Graphemes.firstClusters n text)) ↔
      n = m ∨ Graphemes.countClusters text ≤ min n m) := by
    intro l text hmem
    have hbody := htexts l text hmem
    rw [hm'] at hbody
    rw [← truncate_agrees_iff text (by omega : 0 < m), ← hbody]
    simp only [Int.ofNat_le, Int.ofNat_lt]
  unfold Answer.Agrees Uncut
  simp only [h, hannounced, hm', hn', Int.toNat_natCast, Option.mem_some_iff, forall_eq']
  constructor
  · intro hagrees
    by_cases hnm : n = m
    · exact Or.inl (congrArg _ hnm)
    · refine Or.inr fun l hl text hmem => ?_
      obtain ⟨hle, hmarked⟩ := hagrees l hl
      have hshort := ((hletter l text hmem).1 ⟨hle, hmarked text hmem⟩).resolve_left hnm
      omega
  · intro huncut l hl
    have hboth : ∀ text, (l, text) ∈ a.texts → _ := fun text hmem => (hletter l text hmem).2 <| by
      rcases huncut with hnm | hshort
      · exact Or.inl (by omega)
      · have hle := hshort l hl text hmem
        exact Or.inr (by omega)
    obtain ⟨text, hmem⟩ := exists_text h hl
    exact ⟨(hboth text hmem).1, fun text' hmem' => (hboth text' hmem').2⟩

end Answers

/-! ## A run -/

section Runs

variable [Runes] [Uniseg] {encodedLength : Letter → ℕ} {s s' : Server} {act : Act}

/-- Every response so far agrees with itself, and the deriver's limit is a valid one. -/
structure Sound (s : Server) : Prop where
  agrees : ∀ a ∈ s.answers, a.Agrees
  pos : 0 < s.maxLetterChars

omit [Runes] [Uniseg] in
lemma start_eq {file : Option Toml} {stat : Option FileInfo} (h : start file stat = some s) :
    0 < s.maxLetterChars ∧ s.answers = [] ∧
      s.watcher.current.toml.maxLetterChars = s.maxLetterChars := by
  obtain ⟨w, -, rfl⟩ := Option.map_eq_some_iff.1 h
  exact ⟨w.current.maxLetterChars_pos, rfl, rfl⟩

/-- A step keeps every response sound exactly if it is a sync that finds the limit it started with,
or cuts nothing. -/
theorem Sound.step (h : Sound s) (hstep : step encodedLength s act = some s') :
    (Uncut encodedLength s act → Sound s') ∧
      ((∀ a ∈ s'.answers, a.Agrees) → Uncut encodedLength s act) := by
  cases act with
  | restart file stat =>
      obtain ⟨s₁, hstart, rfl⟩ := Option.map_eq_some_iff.1 hstep
      exact ⟨fun _ => ⟨h.agrees, (start_eq hstart).1⟩, fun _ => trivial⟩
  | poll stat file =>
      obtain rfl := Option.some.inj hstep
      exact ⟨fun _ => ⟨h.agrees, h.pos⟩, fun _ => trivial⟩
  | sync x =>
      simp only [Announced.step] at hstep
      cases hsync : sync encodedLength s x with
      | none =>
          rw [hsync] at hstep
          obtain rfl := Option.some.inj hstep
          refine ⟨fun _ => h, fun _ => Or.inr fun a ha => ?_⟩
          rw [hsync] at ha
          cases ha
      | some a =>
          rw [hsync] at hstep
          obtain rfl := Option.some.inj hstep
          have hiff := agrees_iff h.pos hsync
          refine ⟨fun huncut => ⟨fun b hb => ?_, h.pos⟩, fun hall => ?_⟩
          · rcases List.mem_cons.1 hb with rfl | hb
            · exact hiff.2 huncut
            · exact h.agrees b hb
          · exact hiff.1 (hall a (List.mem_cons_self ..))

/-- **A response agrees with itself exactly if its sync finds the limit the server started with, or
cuts nothing.**  Over any run of restarts, polls of the configuration file and syncs: in every state
of the run, every letter of every response so far has at most the number of clusters that the
response's configuration announces, and one is marked truncated exactly where it was cut to that
number, if and only if each sync of the run finds in force the limit the server was started with, or
delivers no letter whose text is longer than the smaller of the two. -/
theorem agrees_iff_uncut {file : Option Toml} {stat : Option FileInfo} {acts : List Act}
    (hstart : start file stat = some s) (hrun : Run.run (step encodedLength) s acts = some s') :
    (∀ t ∈ Run.visits (step encodedLength) s acts, ∀ a ∈ t.answers, a.Agrees) ↔
      Run.Meets (step encodedLength) (Uncut encodedLength) s acts := by
  have hsound : Sound s := by
    obtain ⟨hpos, hnil, -⟩ := start_eq hstart
    refine ⟨fun a ha => ?_, hpos⟩
    rw [hnil] at ha
    cases ha
  exact Run.forall_visits_iff_meets_of_run (I := Sound) (D := fun _ _ => True)
    (fun s act s' hs _ hstep => hs.step hstep) (fun s hs => hs.agrees) hsound
    (Run.meets_of_mem fun _ _ => trivial) hrun

/-- Every response of every run agrees with itself. -/
def AlwaysAgrees : Prop :=
  ∀ (encodedLength : Letter → ℕ) (file : Option Toml) (stat : Option FileInfo) (acts : List Act)
    (s s' : Server), start file stat = some s →
    Run.run (step encodedLength) s acts = some s' → ∀ a ∈ s'.answers, a.Agrees

end Runs
end Announced

namespace Sample

/-- A complete file with this limit. -/
def toml (maxLetterChars : ℤ) : Toml where
  ownerName := "Ada"
  mailIMAP := "imap.x:993"
  mailSMTP := "smtp.x:465"
  mailAddress := "ada@x"
  tokenHash := String.ofList (List.replicate 64 'a')
  deviceListen := ":8443"
  guardianListen := ":9443"
  maxLetterChars := maxLetterChars

/-- Rosa has written once. -/
def fromRosa : Folder := Folder.empty.push (delivered 1 "rosa@x") (by decide)

/-- The device asks for everything; one letter from Rosa is there, and says no more than this. -/
def asks : Announced.Round where
  table := onlyRosa true
  inbox := fromRosa
  uidValidity := 1
  cursor := ""
  pipeline := fun _ =>
    { pipeline with
      readEnvelope := fun data =>
        some { fromAddrs := some [readFrom data], textPlain := ("ab", false) } }

end Sample

namespace Announced

/-- The limit is what it was when the server started. -/
theorem agrees_of_no_reload : ∃ s s',
    start (some (Sample.toml 1)) (some ⟨0, 1⟩) = some s ∧
    Run.run (@step Sample.runes Sample.uniseg fun _ => 0) s [.sync Sample.asks] = some s' ∧
      ∀ a ∈ s'.answers, @Answer.Agrees Sample.uniseg a := by
  have heval : ((start (some (Sample.toml 1)) (some ⟨0, 1⟩)).any fun s =>
      (Run.run (@step Sample.runes Sample.uniseg fun _ => 0) s [.sync Sample.asks]).isSome) =
        true := by
    decide +kernel
  obtain ⟨s, hstart, hsome⟩ := (Option.any_eq_true _ _).1 heval
  obtain ⟨s', hrun⟩ := Option.isSome_iff_exists.1 hsome
  have huncut : Run.Meets (@step Sample.runes Sample.uniseg fun _ => 0)
      (@Uncut Sample.runes Sample.uniseg fun _ => 0) s [.sync Sample.asks] :=
    ⟨Or.inl (start_eq hstart).2.2, fun _ _ => trivial⟩
  have hagrees := (@agrees_iff_uncut Sample.runes Sample.uniseg _ s s' _ _ _ hstart hrun).2 huncut
  exact ⟨s, s', hstart, hrun, hagrees s' (Run.mem_visits_of_run hrun)⟩

/-- A reload lowers the limit to one cluster, and the next response announces it and carries a
letter of two. -/
theorem reload_leaves_letters_long : ¬ @AlwaysAgrees Sample.runes Sample.uniseg := by
  intro hclaim
  have heval : ((start (some (Sample.toml 500)) (some ⟨0, 1⟩)).any fun s =>
      (Run.run (@step Sample.runes Sample.uniseg fun _ => 0) s
        [.poll (some ⟨1, 1⟩) (some (Sample.toml 1)), .sync Sample.asks]).any fun s' =>
          s'.answers.any fun a => a.letters.any fun l =>
            decide (a.config.maxLetterChars < @Graphemes.countClusters Sample.uniseg l.body)) =
        true := by
    decide +kernel
  obtain ⟨s, hstart, hruns⟩ := (Option.any_eq_true _ _).1 heval
  obtain ⟨s', hrun, hanswers⟩ := (Option.any_eq_true _ _).1 hruns
  obtain ⟨a, ha, hletters⟩ := List.any_eq_true.1 hanswers
  obtain ⟨l, hl, hlong⟩ := List.any_eq_true.1 hletters
  have hle := (hclaim _ _ _ _ s s' hstart hrun a ha l hl).1
  exact absurd hle (not_le.2 (of_decide_eq_true hlong))

end Announced
end Chaskiwasi
