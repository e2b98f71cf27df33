import Chaskiwasi.Guardians.Store
import Chaskiwasi.Lib.Run

/-!
# Two processes and the guardians' file

The server and `wasi useradd` write one file, and nothing locks it.  A call asks for the file's
fingerprint, reads it where that has changed, writes it, and asks for the fingerprint again to
remember it.  Between any two of these steps the other process may take its own.

A write that falls between the refresh of a call and its write is lost with the next.  A write that
falls between a call's write and its last step is never taken in: the call remembers the fingerprint
of a file that it has not read.  Each process keeps, beside its table, which of the file's versions
the table is of (`base`).
-/

namespace Chaskiwasi.Guardians.Race

inductive Side
  | server
  /-- `wasi useradd`. -/
  | useradd
  deriving DecidableEq, Repr

inductive Kind
  | add
  | setPassword
  deriving DecidableEq, Repr

/-- A call of `Add` or `SetPassword` whose name and password were checked. -/
structure Job where
  kind : Kind
  norm : String
  hash : String
  deriving DecidableEq, Repr

/-- Where a process is.  `none` is a call that only looks at the table, as `Get` and `Verify` do. -/
inductive Stage
  | closed
  | idle
  | stat (job : Option Job)
  /-- The file has changed, and this is its new fingerprint. -/
  | read (job : Option Job) (info : Info)
  | write (job : Job)
  /-- The file was written, or read by `Open`. -/
  | stamp
  deriving DecidableEq, Repr

/-- The job of a call that is under way. -/
def Stage.job : Stage → Option Job
  | .stat job => job
  | .read job _ => job
  | .write job => some job
  | _ => none

structure Party where
  store : FileStore := {}
  stage : Stage := .closed
  /-- The version of the file that the table is of.  Nothing reads this. -/
  base : ℕ := 0
  deriving DecidableEq, Repr

structure World where
  file : Option File := none
  parties : Side → Party := fun _ => {}
  /-- How often the file was written, and the rows of the calls that return nil, newest first.
  Nothing reads these. -/
  version : ℕ := 0
  acked : List Guardian := []

inductive Event
  /-- `Open` reads the file. -/
  | openRead (p : Side) (ok : Bool)
  | call (p : Side) (kind : Kind) (name password hash : String)
  | look (p : Side)
  | stat (p : Side) (ok : Bool)
  | read (p : Side) (ok : Bool)
  | write (p : Side) (o : WriteOutcome) (info : Info)
  | stamp (p : Side) (ok : Bool)
  deriving DecidableEq, Repr

section Defs

variable [Runes]

def Job.row (j : Job) (t : Table) : Except Err Guardian :=
  match j.kind with
  | .add => addedRow j.norm j.hash t
  | .setPassword => changedRow j.norm j.hash t

/-- Once the table is refreshed. -/
def Stage.refreshed : Option Job → Stage
  | none => .idle
  | some job => .write job

namespace World

variable (w : World) (p : Side)

def table : Table := (w.file.map File.guardians).getD []

def setParty (party : Party) : World :=
  { w with parties := fun q => if q = p then party else w.parties q }

/-- What `os.Stat` and `os.ReadFile` bring. -/
def stat (ok : Bool) : Option Info := if ok then w.file.map File.info else none

def readFile (ok : Bool) : Option (List Guardian) := if ok then w.file.map File.guardians else none

/-- A row is written, with the table that the process has. -/
def write (g : Guardian) (o : WriteOutcome) (info : Info) : World :=
  let party := w.parties p
  let w' := w.setParty p
    { store := party.store.commit g o none
      stage := if o.ok then .stamp else .idle
      base := if o.ok then w.version + 1 else party.base }
  { w' with
    file := if o.written then some ⟨Keyed.put Guardian.name g party.store.byName, info⟩ else w.file
    version := if o.written then w.version + 1 else w.version
    acked := if o.ok then g :: w.acked else w.acked }

def step (w : World) (e : Event) : Option World :=
  match e with
  | .openRead p ok =>
      if ((w.parties p).stage = .closed ∨ (w.parties p).stage = .idle) ∧ ok = true then
        (opened (w.file.map File.guardians) none).map fun s =>
          w.setParty p
            { store := s
              stage := if w.file.isSome then .stamp else .idle
              base := w.version }
      else none
  | .call p kind name password hash =>
      if (w.parties p).stage = .idle then
        let invalid := match kind with
          | .add => .invalidName
          | .setPassword => .noSuchGuardian
        match checked invalid name password with
        | .error _ => some w
        | .ok norm =>
            some (w.setParty p { w.parties p with stage := .stat (some ⟨kind, norm, hash⟩) })
      else none
  | .look p =>
      if (w.parties p).stage = .idle then
        some (w.setParty p { w.parties p with stage := .stat none })
      else none
  | .stat p ok =>
      match (w.parties p).stage with
      | .stat job =>
          some (w.setParty p
            { w.parties p with
              stage :=
                match w.stat ok with
                | none => .refreshed job
                | some info =>
                    if info = (w.parties p).store.loaded then .refreshed job else .read job info })
      | _ => none
  | .read p ok =>
      match (w.parties p).stage with
      | .read job info =>
          some (w.setParty p
            { store := (w.parties p).store.refresh (some info) (w.readFile ok)
              stage := .refreshed job
              base :=
                if ((w.readFile ok).bind parse).isSome then w.version else (w.parties p).base })
      | _ => none
  | .write p o info =>
      if 0 < info.size then
        match (w.parties p).stage with
        | .write job =>
            match job.row (w.parties p).store.byName with
            | .error _ => some (w.setParty p { w.parties p with stage := .idle })
            | .ok g => some (w.write p g o info)
        | _ => none
      else none
  | .stamp p ok =>
      if (w.parties p).stage = .stamp then
        some (w.setParty p
          { w.parties p with store := (w.parties p).store.stamp (w.stat ok), stage := .idle })
      else none

/-! ## What is promised -/

/-- Both processes are between calls, or closed. -/
def AtRest : Prop := ∀ p, (w.parties p).stage = .idle ∨ (w.parties p).stage = .closed

/-- Every account has in the file the password that it was last given by a call that returns nil. -/
def Lossless : Prop :=
  ∀ a ∈ w.acked, get? w.acked a.name = some a →
    ∃ g ∈ w.table, g.name = a.name ∧ g.passwordHash = a.passwordHash

instance : Decidable w.Lossless := inferInstanceAs (Decidable (∀ a ∈ _, _ → ∃ g ∈ _, _ ∧ _))

/-- The server's store, refreshed. -/
def looked (statOk readOk : Bool) : FileStore :=
  (w.parties .server).store.refresh (w.stat statOk) (w.readFile readOk)

/-- Where the server finds the file changed, it can read it. -/
def Readable (statOk readOk : Bool) : Prop :=
  ∀ f ∈ w.file, f.info ≠ (w.parties .server).store.loaded → statOk = true ∧ readOk = true

/-- The server answers by what is in the file. -/
def Answers [Passwords] : Prop :=
  ∀ statOk readOk, w.Readable statOk readOk →
    (∀ name, get (w.looked statOk readOk).byName name = get w.table name) ∧
      ∀ name password, verify (w.looked statOk readOk).byName name password =
        verify w.table name password

/-- The row that the process is about to write. -/
def rowOf : Option Guardian :=
  match (w.parties p).stage with
  | .write job => (job.row (w.parties p).store.byName).toOption
  | _ => none

/-- A write is of a table that is the file's, has a fingerprint other than the one that the server
goes by, and is not reported as failed where it replaces a password.  The server remembers a
fingerprint with the table of its file. -/
def Undisturbed : Event → Prop
  | .write p o info => ∀ g ∈ w.rowOf p, o.written = true →
      (w.parties p).base = w.version ∧
        (p = .server ∧ o.ok = true ∨ info ≠ (w.parties .server).store.loaded) ∧
        (o.ok = false → ∀ a ∈ w.acked, a.name ≠ g.name)
  | .stamp p ok => p = .server → ok = true → (w.parties p).base = w.version
  | _ => True

instance : ∀ e, Decidable (w.Undisturbed e)
  | .write .. => inferInstanceAs (Decidable (∀ _ ∈ _, _ → _ ∧ (_ ∧ _ ∨ _) ∧ (_ → _)))
  | .stamp .. => inferInstanceAs (Decidable (_ → _ → _))
  | .openRead .. | .call .. | .look _ | .stat .. | .read .. => inferInstanceAs (Decidable True)

/-! ## What every run keeps -/

/-- A table of the last version is the file's, and a server that has the file's fingerprint has its
last version. -/
structure Follows (p : Side) (party : Party) : Prop where
  base_le : party.base ≤ w.version
  current : party.base = w.version → party.store.byName = w.table
  stamped : p = .server → ∀ f ∈ w.file, party.store.loaded = f.info → party.base = w.version
  reading : ∀ job info, party.stage = .read job info → info ≠ party.store.loaded
  named : ∀ job ∈ party.stage.job, normalizeName job.norm = some job.norm

structure Kept : Prop where
  sound : Sound w.table
  sized : ∀ f ∈ w.file, 0 < f.info.size
  unwritten : w.file = none → w.version = 0
  follows : ∀ p, w.Follows p (w.parties p)
  lossless : w.Lossless

end World
end Defs

namespace World

variable {w w' : World} {p q : Side} {party : Party} {e : Event} {es : List Event} {g : Guardian}
  {o : WriteOutcome} {info : Info}

lemma setParty_self (w : World) (p : Side) (party : Party) :
    (w.setParty p party).parties p = party := if_pos rfl

lemma setParty_of_ne (w : World) (party : Party) (h : q ≠ p) :
    (w.setParty p party).parties q = w.parties q := if_neg h

/-- The job of a call is the one it goes on with. -/
lemma job_refreshed (job : Option Job) : (Stage.refreshed job).job = job := by
  cases job with
  | none => rfl
  | some job => rfl

lemma not_read_refreshed (job job' : Option Job) (info : Info) :
    Stage.refreshed job ≠ .read job' info := by
  cases job with
  | none => nofun
  | some job => nofun

lemma file_write (hwritten : o.written = true) (w : World) (p : Side) (g : Guardian) (info : Info) :
    (w.write p g o info).file =
      some ⟨Keyed.put Guardian.name g (w.parties p).store.byName, info⟩ := if_pos hwritten

lemma parties_write (w : World) (p : Side) (g : Guardian) (o : WriteOutcome) (info : Info) :
    (w.write p g o info).parties p =
      if o.ok then
        { store := { (w.parties p).store with
            byName := Keyed.put Guardian.name g (w.parties p).store.byName }
          stage := .stamp
          base := w.version + 1 }
      else { w.parties p with stage := .idle } := by
  refine (setParty_self w p _).trans ?_
  unfold FileStore.commit FileStore.stamp
  cases o.ok with
  | true => rfl
  | false => rfl

lemma write_of_not_written (hwritten : o.written = false) (w : World) (p : Side) (g : Guardian)
    (info : Info) : w.write p g o info = w.setParty p { w.parties p with stage := .idle } := by
  have hok := WriteOutcome.ok_of_not_written hwritten
  unfold World.write FileStore.commit
  simp only [hwritten, hok, Bool.false_eq_true, if_false]
  rfl

section Kept

variable [Runes]

lemma Kept.setParty (hw : w.Kept) (hparty : w.Follows p party) : (w.setParty p party).Kept where
  sound := hw.sound
  sized := hw.sized
  unwritten := hw.unwritten
  follows := by
    intro q
    have hq : w.Follows q ((w.setParty p party).parties q) := by
      by_cases hqp : q = p
      · rw [hqp, setParty_self]
        exact hparty
      · rw [setParty_of_ne w party hqp]
        exact hw.follows q
    exact ⟨hq.base_le, hq.current, hq.stamped, hq.reading, hq.named⟩
  lossless := hw.lossless

lemma Kept.sound_file (hw : w.Kept) : ∀ f ∈ w.file, Sound f.guardians := by
  intro f hf
  have htable := hw.sound
  rw [World.table, Option.mem_def.1 hf] at htable
  exact htable

/-- A process goes to another stage. -/
lemma Follows.goto (hparty : w.Follows p party) (stage : Stage)
    (hreading : ∀ job info, stage = .read job info → info ≠ party.store.loaded)
    (hnamed : ∀ job ∈ stage.job, normalizeName job.norm = some job.norm) :
    w.Follows p { party with stage := stage } :=
  ⟨hparty.base_le, hparty.current, hparty.stamped, hreading, hnamed⟩

/-- A table that was just read or written is of the last version. -/
lemma follows_last {store : FileStore} (htable : store.byName = w.table) (stage : Stage)
    (hreading : ∀ job info, stage ≠ .read job info)
    (hnamed : ∀ job ∈ stage.job, normalizeName job.norm = some job.norm) :
    w.Follows p { store := store, stage := stage, base := w.version } :=
  ⟨le_refl _, fun _ => htable, fun _ _ _ _ => rfl, fun job info h => absurd h (hreading job info),
    hnamed⟩

lemma Follows.idle (hparty : w.Follows p party) : w.Follows p { party with stage := .idle } :=
  hparty.goto .idle nofun nofun

/-- A proper row that is written from the file's table, under a new fingerprint, loses nothing. -/
lemma Kept.write (hw : w.Kept) (hnamed : normalizeName g.name = some g.name)
    (hcounted : 1 ≤ g.sessionEpoch) (hinfo : 0 < info.size) (hwritten : o.written = true)
    (hbase : (w.parties p).base = w.version)
    (hnew : p = .server ∧ o.ok = true ∨ info ≠ (w.parties .server).store.loaded)
    (hfailed : o.ok = false → ∀ a ∈ w.acked, a.name ≠ g.name) :
    (w.write p g o info).Kept := by
  have hfile := file_write hwritten w p g info
  rw [(hw.follows p).current hbase] at hfile
  have hput : (w.write p g o info).table = Keyed.put Guardian.name g w.table := by
    rw [World.table, hfile]
    rfl
  have hversion : (w.write p g o info).version = w.version + 1 := if_pos hwritten
  have hinfos : ∀ f ∈ (w.write p g o info).file, f.info = info := by
    intro f hf
    rw [hfile] at hf
    obtain rfl := Option.some.inj hf
    rfl
  have hkeeps : ∀ old ∈ w.table, old.name ≠ g.name → old ∈ (w.write p g o info).table := by
    intro old hold hne
    rw [hput]
    exact hw.sound.ascending.mem_put_iff.2 (.inr ⟨hold, hne⟩)
  exact
    { sound := by
        rw [hput]
        exact hw.sound.put hnamed hcounted
      sized := by
        intro f hf
        rw [hinfos f hf]
        exact hinfo
      unwritten := by
        intro hnone
        rw [hfile] at hnone
        cases hnone
      follows := by
        intro q
        have hq := hw.follows q
        have hle := hq.base_le
        by_cases hqp : q = p
        · subst hqp
          rw [parties_write]
          cases hok : o.ok with
          | true =>
              refine ⟨hversion.ge, fun _ => ?_, fun _ _ _ _ => hversion.symm, nofun, nofun⟩
              rw [hput, ← hq.current hbase]
              rfl
          | false =>
              refine ⟨?_, fun hlast => ?_, fun hserver f hf hloaded => ?_, nofun, nofun⟩
              · show (w.parties q).base ≤ _
                omega
              · have hlast' : (w.parties q).base = (w.write q g o info).version := hlast
                omega
              · subst hserver
                rw [hinfos f hf] at hloaded
                rcases hnew with ⟨-, hdone⟩ | hnew
                · rw [hok] at hdone
                  cases hdone
                · exact absurd hloaded.symm hnew
        · have hsame : (w.write p g o info).parties q = w.parties q := setParty_of_ne w _ hqp
          rw [hsame]
          refine ⟨?_, fun hlast => ?_, fun hserver f hf hloaded => ?_, hq.reading, hq.named⟩
          · omega
          · omega
          · subst hserver
            rw [hinfos f hf] at hloaded
            rcases hnew with ⟨hserver, -⟩ | hnew
            · exact absurd hserver.symm hqp
            · exact absurd hloaded.symm hnew
      lossless := by
        intro a ha hlast
        cases hok : o.ok with
        | true =>
            have hacked : (w.write p g o info).acked = g :: w.acked := if_pos hok
            rw [hacked] at ha hlast
            by_cases hname : g.name = a.name
            · have hself : get? (g :: w.acked) a.name = some g :=
                List.find?_cons_of_pos (by simpa using hname)
              obtain rfl := Option.some.inj (hself.symm.trans hlast)
              refine ⟨g, ?_, rfl, rfl⟩
              rw [hput]
              exact Keyed.mem_put_self _ g
            · have hearlier : get? (g :: w.acked) a.name = get? w.acked a.name :=
                List.find?_cons_of_neg (by simpa using hname)
              rw [hearlier] at hlast
              obtain ⟨old, hold, holdname, hhash⟩ :=
                hw.lossless a (mem_of_get?_eq_some hlast).1 hlast
              exact ⟨old, hkeeps old hold (holdname.trans_ne (Ne.symm hname)), holdname, hhash⟩
        | false =>
            have hacked : (w.write p g o info).acked = w.acked :=
              if_neg (by rw [hok]; exact Bool.false_ne_true)
            rw [hacked] at ha hlast
            obtain ⟨old, hold, holdname, hhash⟩ := hw.lossless a ha hlast
            have hne := hfailed hok a ha
            exact ⟨old, hkeeps old hold (holdname.trans_ne hne), holdname, hhash⟩ }

/-- A job's row may be committed to the table that it was made from. -/
lemma Job.named_row {job : Job} {t : Table} (ht : Sound t)
    (hnorm : normalizeName job.norm = some job.norm) (hrow : job.row t = .ok g) :
    normalizeName g.name = some g.name ∧ 1 ≤ g.sessionEpoch := by
  unfold Job.row at hrow
  cases hkind : job.kind with
  | add =>
      rw [hkind] at hrow
      have hg := proper_addedRow ht hnorm hrow
      exact ⟨hg.named, hg.counted⟩
  | setPassword =>
      rw [hkind] at hrow
      have hg := (proper_changedRow ht hrow).1
      exact ⟨hg.named, hg.counted⟩

variable [NameRunes]

/-- An event that nothing disturbs keeps what is kept. -/
lemma Kept.step (hw : w.Kept) (hundisturbed : w.Undisturbed e) (hstep : w.step e = some w') :
    w'.Kept := by
  cases e with
  | openRead p ok =>
      obtain ⟨-, hopen⟩ := Option.ite_none_right_eq_some.1 hstep
      obtain ⟨s, hopened, rfl⟩ := Option.map_eq_some_iff.1 hopen
      have htable : s.byName = w.table := by
        unfold World.table
        cases hfile : w.file with
        | none =>
            rw [hfile] at hopened
            obtain rfl := Option.some.inj hopened
            rfl
        | some f =>
            rw [hfile] at hopened
            unfold opened at hopened
            simp only [Option.map_some, (hw.sound_file f hfile).parse, Option.some.injEq] at hopened
            obtain rfl := hopened
            rfl
      cases w.file.isSome with
      | true => exact hw.setParty (follows_last htable .stamp nofun nofun)
      | false => exact hw.setParty (follows_last htable .idle nofun nofun)
  | call p kind name password hash =>
      obtain ⟨-, hcall⟩ := Option.ite_none_right_eq_some.1 hstep
      simp only at hcall
      split at hcall
      · obtain rfl := Option.some.inj hcall
        exact hw
      next norm hchecked =>
        obtain rfl := Option.some.inj hcall
        refine hw.setParty ((hw.follows p).goto (.stat (some ⟨kind, norm, hash⟩)) nofun ?_)
        intro job hjob
        obtain rfl := Option.some.inj hjob
        exact normalizeName_self (checked_eq_ok hchecked)
  | look p =>
      obtain ⟨-, hlook⟩ := Option.ite_none_right_eq_some.1 hstep
      obtain rfl := Option.some.inj hlook
      exact hw.setParty ((hw.follows p).goto (.stat none) nofun nofun)
  | stat p ok =>
      have hparty := hw.follows p
      simp only [World.step] at hstep
      cases hstage : (w.parties p).stage with
      | stat job =>
          rw [hstage] at hstep
          obtain rfl := Option.some.inj hstep
          have hnamed : ∀ j ∈ job, normalizeName j.norm = some j.norm := by
            have hold := hparty.named
            rw [hstage] at hold
            exact hold
          have hrefreshed : w.Follows p { w.parties p with stage := .refreshed job } := by
            refine hparty.goto (.refreshed job) ?_ ?_
            · exact fun job' info h => absurd h (not_read_refreshed job job' info)
            · rw [job_refreshed]
              exact hnamed
          cases hstat : w.stat ok with
          | none => exact hw.setParty hrefreshed
          | some info =>
              simp only
              by_cases heq : info = (w.parties p).store.loaded
              · rw [if_pos heq]
                exact hw.setParty hrefreshed
              · rw [if_neg heq]
                refine hw.setParty (hparty.goto (.read job info) ?_ hnamed)
                intro job' info' hread
                obtain ⟨-, rfl⟩ := Stage.read.inj hread
                exact heq
      | closed | idle | read | write | stamp =>
          rw [hstage] at hstep
          cases hstep
  | read p ok =>
      have hparty := hw.follows p
      simp only [World.step] at hstep
      cases hstage : (w.parties p).stage with
      | read job info =>
          rw [hstage] at hstep
          obtain rfl := Option.some.inj hstep
          have hne := hparty.reading job info hstage
          have hnamed : ∀ j ∈ (Stage.refreshed job).job, normalizeName j.norm = some j.norm := by
            have hold := hparty.named
            rw [hstage] at hold
            rw [job_refreshed]
            exact hold
          have hreading : ∀ job' info', Stage.refreshed job ≠ .read job' info' :=
            not_read_refreshed job
          refine hw.setParty ?_
          unfold FileStore.refresh
          simp only [if_neg hne]
          cases hread : (w.readFile ok).bind parse with
          | none =>
              exact ⟨hparty.base_le, hparty.current, hparty.stamped,
                fun job' info' h => absurd h (hreading job' info'), hnamed⟩
          | some t =>
              refine follows_last ?_ (.refreshed job) hreading hnamed
              obtain ⟨data, hdata, hparse⟩ := Option.bind_eq_some_iff.1 hread
              obtain ⟨-, hfile⟩ := Option.ite_none_right_eq_some.1 hdata
              obtain ⟨f, hf, rfl⟩ := Option.map_eq_some_iff.1 hfile
              rw [(hw.sound_file f hf).parse] at hparse
              rw [World.table, hf, ← Option.some.inj hparse]
              rfl
      | closed | idle | stat | write | stamp =>
          rw [hstage] at hstep
          cases hstep
  | write p o info =>
      have hparty := hw.follows p
      obtain ⟨hinfo, hwrite⟩ := Option.ite_none_right_eq_some.1 hstep
      simp only [Undisturbed, rowOf] at hundisturbed
      cases hstage : (w.parties p).stage with
      | write job =>
          rw [hstage] at hwrite hundisturbed
          simp only at hwrite hundisturbed
          cases hrow : job.row (w.parties p).store.byName with
          | error err =>
              rw [hrow] at hwrite
              obtain rfl := Option.some.inj hwrite
              exact hw.setParty hparty.idle
          | ok g =>
              rw [hrow] at hwrite hundisturbed
              obtain rfl := Option.some.inj hwrite
              cases hwritten : o.written with
              | true =>
                  obtain ⟨hbase, hnew, hfailed⟩ := hundisturbed g rfl hwritten
                  have hnorm : normalizeName job.norm = some job.norm :=
                    hparty.named job (by rw [hstage]; rfl)
                  rw [hparty.current hbase] at hrow
                  obtain ⟨hnamed, hcounted⟩ := Job.named_row hw.sound hnorm hrow
                  exact hw.write hnamed hcounted hinfo hwritten hbase hnew hfailed
              | false =>
                  rw [write_of_not_written hwritten]
                  exact hw.setParty hparty.idle
      | closed | idle | stat | read | stamp =>
          rw [hstage] at hwrite
          cases hwrite
  | stamp p ok =>
      obtain ⟨-, hstamp⟩ := Option.ite_none_right_eq_some.1 hstep
      obtain rfl := Option.some.inj hstamp
      have hparty := hw.follows p
      have hsame : ((w.parties p).store.stamp (w.stat ok)).byName = (w.parties p).store.byName := by
        unfold FileStore.stamp
        cases w.stat ok with
        | none => rfl
        | some info => rfl
      refine hw.setParty ⟨hparty.base_le, fun hlast => ?_, fun hserver f hf hloaded => ?_, nofun,
        nofun⟩
      · exact hsame.trans (hparty.current hlast)
      · cases ok with
        | false => exact hparty.stamped hserver f hf hloaded
        | true => exact hundisturbed hserver rfl

omit [NameRunes] in
/-- A server that can read the file where it has changed answers by what is in it. -/
lemma Kept.answers [Passwords] (hw : w.Kept) : w.Answers := by
  intro statOk readOk hreadable
  have hserver := hw.follows .server
  have hlooked : (w.looked statOk readOk).byName = w.table := by
    rcases (w.parties .server).store.refresh_cases hw.sound_file statOk readOk with
      ⟨hsame, hunread⟩ | ⟨f, hf, hread⟩
    · unfold World.looked World.stat World.readFile
      rw [hsame]
      refine hserver.current ?_
      cases hfile : w.file with
      | none =>
          have hle := hserver.base_le
          rw [hw.unwritten hfile] at hle ⊢
          omega
      | some f =>
          refine hserver.stamped rfl f hfile ?_
          by_contra hne
          exact hunread f hfile (Ne.symm hne) (hreadable f hfile (Ne.symm hne))
    · unfold World.looked World.stat World.readFile World.table
      rw [hread, Option.mem_def.1 hf]
      rfl
  constructor
  · intro name
    rw [hlooked]
  · intro name password
    rw [hlooked]

end Kept

/-- Nothing was written yet. -/
def initial : World := {}

lemma kept_initial [Runes] : initial.Kept where
  sound := sound_nil
  sized := nofun
  unwritten := fun _ => rfl
  follows := fun _ => ⟨le_refl _, fun _ => rfl, fun _ => nofun, nofun, nofun⟩
  lossless := nofun

/-- In every run that nothing disturbs, every account has in the file the password that it was last
given by a call that returns nil, and the server answers by what is in the file. -/
theorem nothing_lost [Runes] [NameRunes] [Passwords] {es : List Event} {w : World}
    (hundisturbed : Run.Meets step Undisturbed initial es)
    (hrun : Run.run step initial es = some w) : w.Lossless ∧ w.Answers := by
  have hkept : w.Kept := Run.run_invariant_of_meets
    (fun _ _ _ hw hC hstep => hw.step hC hstep) kept_initial hundisturbed hrun
  exact ⟨hkept.lossless, hkept.answers⟩

end World

namespace Sample

/-- `ana` gets an account from the server, and a new password from `wasi useradd`. -/
def inTurn : List Event :=
  [.openRead .server true, .call .server .add "ana" "secretsecret" "secretsecret",
    .stat .server true, .write .server .done ⟨some 1, 1⟩, .stamp .server true,
    .openRead .useradd true, .stamp .useradd true,
    .call .useradd .setPassword "ana" "changedsecret" "changedsecret", .stat .useradd true,
    .write .useradd .done ⟨some 2, 1⟩, .stamp .useradd true]

/-- Both processes open the file and are asked for an account. -/
def bothAsked : List Event :=
  [.openRead .server true, .openRead .useradd true,
    .call .server .add "ana" "secretsecret" "secretsecret",
    .call .useradd .add "rosa" "secretsecret" "secretsecret", .stat .server true]

/-- Each looks at the file before the other writes it. -/
def crossed : List Event :=
  bothAsked ++ [.stat .useradd true, .write .server .done ⟨some 1, 1⟩, .stamp .server true,
    .write .useradd .done ⟨some 2, 1⟩, .stamp .useradd true]

/-- One writes between the other's write and its stamp. -/
def overtaken : List Event :=
  bothAsked ++ [.write .server .done ⟨some 1, 1⟩, .stat .useradd true, .read .useradd true,
    .write .useradd .done ⟨some 2, 1⟩, .stamp .useradd true, .stamp .server true]

end Sample

namespace World

theorem nothing_lost_inTurn :
    ∃ w, Run.run (@step Sample.runes) initial Sample.inTurn = some w ∧ w.acked.length = 2 ∧
      w.Lossless ∧ @Answers Sample.runes w Login.Sample.passwords := by
  have hany : (Run.run (@step Sample.runes) initial Sample.inTurn).any
      (fun w => decide (w.acked.length = 2)) = true := by
    decide +kernel
  obtain ⟨w, hrun, hlen⟩ := Run.exists_of_any hany
  exact ⟨w, hrun, of_decide_eq_true hlen, @nothing_lost Sample.runes Sample.nameRunes
    Login.Sample.passwords Sample.inTurn w (by decide +kernel) hrun⟩

/-- An account that the server has added is gone once `wasi useradd` has written the table that it
had; and a server that was overtaken never sees the account that `wasi useradd` has added. -/
theorem crossed_writes_lose :
    (¬ ∀ es w, Run.run (@step Sample.runes) initial es = some w → w.AtRest → w.Lossless) ∧
      ¬ ∀ es w, Run.run (@step Sample.runes) initial es = some w → w.AtRest →
        @Answers Sample.runes w Login.Sample.passwords := by
  constructor
  · intro h
    have hany : (Run.run (@step Sample.runes) initial Sample.crossed).any (fun w =>
        decide ((w.parties .server).stage = .idle ∧ (w.parties .useradd).stage = .idle ∧
          ¬ w.Lossless)) = true := by
      decide +kernel
    obtain ⟨w, hrun, hw⟩ := Run.exists_of_any hany
    obtain ⟨hserver, huseradd, hlost⟩ := of_decide_eq_true hw
    refine hlost (h Sample.crossed w hrun fun p => ?_)
    cases p with
    | server => exact .inl hserver
    | useradd => exact .inl huseradd
  · intro h
    have hany : (Run.run (@step Sample.runes) initial Sample.overtaken).any (fun w =>
        decide ((w.parties .server).stage = .idle ∧ (w.parties .useradd).stage = .idle ∧
          @get Sample.runes (@looked Sample.runes w true true).byName "rosa" ≠
            @get Sample.runes w.table "rosa")) = true := by
      decide +kernel
    obtain ⟨w, hrun, hw⟩ := Run.exists_of_any hany
    obtain ⟨hserver, huseradd, hstale⟩ := of_decide_eq_true hw
    have hanswers := h Sample.overtaken w hrun fun p => by
      cases p with
      | server => exact .inl hserver
      | useradd => exact .inl huseradd
    exact hstale ((hanswers true true fun _ _ _ => ⟨rfl, rfl⟩).1 "rosa")

end World
end Chaskiwasi.Guardians.Race
