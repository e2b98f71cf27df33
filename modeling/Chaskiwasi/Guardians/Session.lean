import Chaskiwasi.Guardians.Cookie
import Chaskiwasi.Lib.Run
import Mathlib.Logic.Function.Basic

/-!
# Sessions and changes of password

A cookie is minted for a row that the store gave out, and is accepted while the account's epoch is
the one in the cookie.  The row may be minted any time after it left the store, and the account's
password may be changed meanwhile, by the server or by `wasi useradd`, each of which keeps a table
of its own and reads the file again where its fingerprint has changed.

Two things let a cookie outlive a change of the password that the guardian verified.  The form that
changes a password mints for the new row, so that the guardian who used it stays signed in.  And a
store that cannot read the file goes on with the table that it has.
-/

namespace Chaskiwasi.Guardians

open Pututu (Bytes)

def sessionLifetime : ℤ := 12 * 60 * 60 * second

inductive Process
  | server
  /-- A run of `wasi useradd`. -/
  | cli (n : ℕ)
  deriving DecidableEq, Repr

/-- How the system calls of one call on a store end. -/
structure Io where
  stat : Bool := true
  read : Bool := true
  write : WriteOutcome := .done
  /-- The modification time and the size of the file, where it is written. -/
  info : Info := {}
  stamp : Bool := true
  deriving DecidableEq, Repr

/-- A row that the store gave out to be minted. -/
structure Held where
  guardian : Guardian
  /-- The changes of password until the guardian was verified, and until the row was given out. -/
  verified : List String
  left : List String
  deriving DecidableEq, Repr

structure Minted where
  held : Held
  expiry : ℤ
  deriving DecidableEq, Repr

def Minted.payload (m : Minted) : Bytes :=
  sessionPayload m.held.guardian.name m.expiry m.held.guardian.sessionEpoch

inductive SessionErr
  | badSession
  | sessionExpired
  | staleEpoch
  deriving DecidableEq, Repr

structure World where
  cookieKey : Bytes
  file : Option File := none
  stores : Process → FileStore := fun _ => {}
  /-- The rows that were given out to be minted, in their order. -/
  held : List Held := []
  /-- What the file's fingerprints were, what was minted, what was signed, and whose passwords were
  changed, newest first.  No procedure reads these. -/
  infos : List Info := []
  minted : List Minted := []
  signed : List Bytes := []
  changed : List String := []

inductive Event
  /-- A process opens its store. -/
  | start (p : Process) (io : Io)
  | add (p : Process) (name password hash : String) (io : Io)
  | setPassword (p : Process) (name password hash : String) (io : Io)
  | get (p : Process) (name : String) (io : Io)
  /-- The server verifies a password. -/
  | verify (name password : String) (io : Io)
  /-- `handlePasswordChange`, once it has verified a row. -/
  | change (i : ℕ) (password hash : String) (io : Io)
  /-- The server mints a session for a row. -/
  | mint (i : ℕ) (now : ℤ)
  /-- The server signs a form. -/
  | csrf (guardian : Bytes) (epoch : ℤ) (nonce : Bytes)
  /-- The server reads a cookie. -/
  | read (value : List Char) (now : ℤ) (io : Io)

namespace World

section Calls

variable [Runes] [Passwords] [Hmac] (w : World) (p : Process) (io : Io)

/-! ## The calls -/

/-- The rows in the file. -/
def table : Table := (w.file.map File.guardians).getD []

def setStore (s : FileStore) : World := { w with stores := Function.update w.stores p s }

/-- The store as `refreshLocked` leaves it. -/
def refreshed : FileStore :=
  (w.stores p).refresh (if io.stat then w.file.map File.info else none)
    (if io.read then w.file.map File.guardians else none)

/-- `commitLocked`: the row is entered and the table written. -/
def commit (g : Guardian) : World :=
  let written := Keyed.put Guardian.name g (w.stores p).byName
  let w' := w.setStore p ((w.stores p).commit g io.write (if io.stamp then some io.info else none))
  if io.write.written then
    { w' with file := some ⟨written, io.info⟩, infos := io.info :: w.infos }
  else w'

/-- The second half of `Add` and `SetPassword`: the table is refreshed, and the row that is made
from it committed. -/
def call (row : Table → Except Err Guardian) : Except Err Guardian × World :=
  let w' := w.setStore p (w.refreshed p io)
  match row (w.refreshed p io).byName with
  | .error e => (.error e, w')
  | .ok g => (if io.write.ok then .ok g else .error .persisting, w'.commit p io g)

def add (name password hash : String) : Except Err Guardian × World :=
  match checked .invalidName name password with
  | .error e => (.error e, w)
  | .ok norm => w.call p io (addedRow norm hash)

/-- A change that succeeds is noted. -/
def note (r : Except Err Guardian × World) : Except Err Guardian × World :=
  match r.1 with
  | .error _ => r
  | .ok g => (r.1, { r.2 with changed := g.name :: r.2.changed })

def setPassword (name password hash : String) : Except Err Guardian × World :=
  match checked .noSuchGuardian name password with
  | .error e => (.error e, w)
  | .ok norm => note (w.call p io (changedRow norm hash))

def get (name : String) : Option Guardian × World :=
  match normalizeName name with
  | none => (none, w)
  | some norm => (get? (w.refreshed p io).byName norm, w.setStore p (w.refreshed p io))

def mintSession (h : Held) (now : ℤ) : World :=
  let m : Minted := ⟨h, now + sessionLifetime⟩
  { w with minted := m :: w.minted, signed := sessionText m.payload :: w.signed }

/-- `readSession`, of a request with a cookie. -/
def readSession (value : List Char) (now : ℤ) : Except SessionErr Session × World :=
  match (openCookie w.cookieKey value).bind readPayload with
  | none => (.error .badSession, w)
  | some sess =>
      if sess.expiry ≤ now then (.error .sessionExpired, w)
      else
        match text? sess.guardian with
        | none => (.error .badSession, w)
        | some name =>
            match w.get .server io name with
            | (none, w') => (.error .badSession, w')
            | (some g, w') =>
                (if g.sessionEpoch ≠ sess.epoch then .error .staleEpoch else .ok sess, w')

/-- A row that is given out once more, after a change by its own guardian. -/
def hold (verified : List String) (r : Except Err Guardian × World) : World :=
  match r.1 with
  | .error _ => r.2
  | .ok g => { r.2 with held := r.2.held ++ [⟨g, verified, r.2.changed⟩] }

/-- The file system gives no file a fingerprint that one had before. -/
def Fresh : Prop := 0 < io.info.size ∧ io.info ∉ w.infos

instance : Decidable (w.Fresh io) := inferInstanceAs (Decidable (_ ∧ _))

def step (w : World) (e : Event) : Option World :=
  match e with
  | .start p io =>
      if io.read then
        (opened (w.file.map File.guardians)
          (if io.stamp then w.file.map File.info else none)).map fun s => w.setStore p s
      else none
  | .add p name password hash io =>
      if w.Fresh io then some (w.add p io name password hash).2 else none
  | .setPassword p name password hash io =>
      if w.Fresh io then some (w.setPassword p io name password hash).2 else none
  | .get p name io => some (w.get p io name).2
  | .verify name password io =>
      let w' := w.setStore .server (w.refreshed .server io)
      some (hold w.changed (Guardians.verify (w.refreshed .server io).byName name password, w'))
  | .change i password hash io =>
      if w.Fresh io then
        w.held[i]?.map fun h =>
          hold h.verified (w.setPassword .server io h.guardian.name password hash)
      else none
  | .mint i now => w.held[i]?.map fun h => w.mintSession h now
  | .csrf guardian epoch nonce =>
      some { w with signed := csrfText guardian epoch nonce :: w.signed }
  | .read value now io => some (w.readSession io value now).2

/-! ## What is promised -/

/-- Nothing but the key's own signature verifies. -/
def Unforged : Event → Prop
  | .read value _ _ => ∀ payload ∈ openCookie w.cookieKey value, sessionText payload ∈ w.signed
  | _ => True

instance : ∀ e, Decidable (w.Unforged e)
  | .read .. => inferInstanceAs (Decidable (∀ _ ∈ _, _))
  | .start .. | .add .. | .setPassword .. | .get .. | .verify .. | .change .. | .mint .. |
    .csrf .. => inferInstanceAs (Decidable True)

/-- A store that finds the file changed can read it. -/
def Readable : Prop :=
  ∀ f ∈ w.file, f.info ≠ (w.stores p).loaded → io.stat = true ∧ io.read = true

instance : Decidable (w.Readable p io) := inferInstanceAs (Decidable (∀ _ ∈ _, _))

/-- No refresh of an event fails to take in a change of the file. -/
def Legible : Event → Prop
  | .add p _ _ _ io | .setPassword p _ _ _ io | .get p _ io => w.Readable p io
  | .verify _ _ io | .change _ _ _ io | .read _ _ io => w.Readable .server io
  | .start .. | .mint .. | .csrf .. => True

instance : ∀ e, Decidable (w.Legible e)
  | .add p _ _ _ io | .setPassword p _ _ _ io | .get p _ io =>
      inferInstanceAs (Decidable (w.Readable p io))
  | .verify _ _ io | .change _ _ _ io | .read _ _ io =>
      inferInstanceAs (Decidable (w.Readable .server io))
  | .start .. | .mint .. | .csrf .. => inferInstanceAs (Decidable True)

/-- No password of the name was changed between `since` and `now`. -/
def Unchanged (name : String) (since now : List String) : Prop :=
  since <:+ now ∧ name ∉ now.take (now.length - since.length)

instance (name : String) (since now : List String) : Decidable (Unchanged name since now) :=
  inferInstanceAs (Decidable (_ ∧ _))

/-- A minted session backs the answer to a cookie: where it is accepted, the session has the
cookie's payload, is of the same guardian and has not expired, and the password was not changed
since it was given out. -/
def BackedBy (since : Held → List String) (value : List Char) (now : ℤ) :
    Except SessionErr Session → Prop
  | .error _ => True
  | .ok sess =>
      ∃ m ∈ w.minted, (decodeCookie value).map Prod.fst = some m.payload ∧
        sess.guardian = utf8 m.held.guardian.name ∧ now < m.expiry ∧
        Unchanged m.held.guardian.name (since m.held) w.changed

instance (since : Held → List String) (value : List Char) (now : ℤ) :
    ∀ r, Decidable (w.BackedBy since value now r)
  | .error _ => inferInstanceAs (Decidable True)
  | .ok _ => inferInstanceAs (Decidable (∃ m ∈ w.minted, _ ∧ _ ∧ _ ∧ Unchanged _ _ _))

/-- Every cookie that is accepted is backed. -/
def Backed (since : Held → List String) : Event → Prop
  | .read value now io => w.BackedBy since value now (w.readSession io value now).1
  | _ => True

instance (since : Held → List String) : ∀ e, Decidable (w.Backed since e)
  | .read value now io =>
      inferInstanceAs (Decidable (w.BackedBy since value now (w.readSession io value now).1))
  | .start .. | .add .. | .setPassword .. | .get .. | .verify .. | .change .. | .mint .. |
    .csrf .. => inferInstanceAs (Decidable True)

/-- A change that succeeds leaves the account in the file with a higher epoch. -/
def Raises (r : Except Err Guardian × World) : Prop :=
  ∀ g, r.1 = .ok g → ∃ old, get? w.table g.name = some old ∧ old.sessionEpoch < g.sessionEpoch ∧
    get? r.2.table g.name = some g

/-- Every account is there still, with an epoch that is no lower. -/
def Rises (w' : World) : Prop :=
  ∀ old ∈ w.table, ∃ g ∈ w'.table, g.name = old.name ∧ old.sessionEpoch ≤ g.sessionEpoch

/-- What a change of password raises, in an event that makes one. -/
def RaisedBy : Event → Prop
  | .setPassword p name password hash io => w.Raises (w.setPassword p io name password hash)
  | .change i password hash io =>
      ∀ h ∈ w.held[i]?, w.Raises (w.setPassword .server io h.guardian.name password hash)
  | _ => True

/-- No event lowers an epoch, and a change of password raises the account's. -/
def Climbs (e : Event) : Prop := ∀ w', w.step e = some w' → w.Rises w' ∧ w.RaisedBy e

end Calls

/-- A server that was never used. -/
def initial (cookieKey : Bytes) : World where
  cookieKey := cookieKey

/-- Under a condition on the events of a run, every cookie that it accepts is backed. -/
def SessionsEnd [Runes] [Passwords] [Hmac] (C : World → Event → Prop)
    (since : Held → List String) : Prop :=
  ∀ cookieKey es, Run.Meets step C (initial cookieKey) es →
    Run.Meets step (fun w e => w.Backed since e) (initial cookieKey) es

/-! ## What every run keeps -/

/-- A store agrees with the file where it has its fingerprint, and the fingerprint is one that the
file has had. -/
structure Follows (w : World) (s : FileStore) : Prop where
  current : ∀ f ∈ w.file, s.loaded = f.info → s.byName = f.guardians
  empty : w.file = none → s.byName = []
  known : s.loaded ∈ w.infos ∨ s.loaded = {}

/-- The changes of its password since the row was given out have raised the account's epoch, each by
one at least. -/
def Dated (t : Table) (changed : List String) (h : Held) : Prop :=
  ∃ g ∈ t, g.name = h.guardian.name ∧ ∃ later, changed = later ++ h.left ∧
    h.guardian.sessionEpoch + later.count g.name ≤ g.sessionEpoch

structure Kept [Runes] (w : World) : Prop where
  sound : Sound w.table
  follows : ∀ p, w.Follows (w.stores p)
  infos : ∀ f ∈ w.file, f.info ∈ w.infos
  sized : ∀ i ∈ w.infos, 0 < i.size
  dated : ∀ h ∈ w.held, Dated w.table w.changed h
  minted : ∀ m ∈ w.minted, m.held ∈ w.held
  signed : ∀ text ∈ w.signed, (∃ m ∈ w.minted, text = sessionText m.payload) ∨
    ∃ guardian epoch nonce, text = csrfText guardian epoch nonce

variable {w w' : World} {p q : Process} {io : Io} {s : FileStore} {g : Guardian} {t : Table}
  {changed names : List String} {h : Held}

/-! ## Stores and the file -/

section Stores

lemma setStore_self (w : World) (p : Process) (s : FileStore) :
    (w.setStore p s).stores p = s := Function.update_self ..

lemma setStore_of_ne (hq : q ≠ p) : (w.setStore p s).stores q = w.stores q :=
  Function.update_of_ne hq ..

/-- No store has the fingerprint of a file that is yet to be written. -/
lemma Follows.loaded_ne (hs : w.Follows s) (hfresh : w.Fresh io) : s.loaded ≠ io.info := by
  intro heq
  rcases hs.known with hknown | hknown
  · exact hfresh.2 (heq ▸ hknown)
  · have hsize := hfresh.1
    rw [← heq, hknown] at hsize
    exact absurd hsize (Nat.lt_irrefl 0)

/-- A store goes on following the file when it is written anew. -/
lemma Follows.rewritten (hs : w.Follows s) (hfresh : w.Fresh io)
    (hfile : w'.file = some ⟨t, io.info⟩) (hinfos : w'.infos = io.info :: w.infos) :
    w'.Follows s where
  current := by
    intro f hf heq
    obtain rfl := Option.some.inj (hfile.symm.trans hf)
    exact absurd heq (hs.loaded_ne hfresh)
  empty := by
    intro hnone
    rw [hfile] at hnone
    cases hnone
  known := by
    rw [hinfos]
    exact hs.known.imp (List.mem_cons_of_mem _) id

/-- So does the one that writes it. -/
lemma Follows.committed (hs : w.Follows s) (hfresh : w.Fresh io)
    (hfile : w'.file = some ⟨Keyed.put Guardian.name g s.byName, io.info⟩)
    (hinfos : w'.infos = io.info :: w.infos) :
    w'.Follows (s.commit g io.write (if io.stamp then some io.info else none)) := by
  have hold := hs.rewritten hfresh hfile hinfos
  unfold FileStore.commit
  cases io.write.ok with
  | false => exact hold
  | true =>
      rw [if_pos rfl]
      cases io.stamp with
      | true =>
          refine ⟨fun f hf _ => ?_, fun hnone => ?_, .inl ?_⟩
          · obtain rfl := Option.some.inj (hfile.symm.trans hf)
            rfl
          · rw [hfile] at hnone
            cases hnone
          · rw [hinfos]
            exact List.mem_cons_self ..
      | false =>
          refine ⟨fun f hf heq => ?_, fun hnone => ?_, hold.known⟩
          · obtain rfl := Option.some.inj (hfile.symm.trans hf)
            exact absurd heq (hs.loaded_ne hfresh)
          · rw [hfile] at hnone
            cases hnone

variable [Runes]

/-- A refreshed store follows the file, and where it could read it, it has its table. -/
lemma Kept.refreshed (hw : w.Kept) (p : Process) (io : Io) :
    w.Follows (w.refreshed p io) ∧ (w.Readable p io → (w.refreshed p io).byName = w.table) := by
  have hstore := hw.follows p
  have hsound : ∀ f ∈ w.file, Sound f.guardians := by
    intro f hf
    have htable := hw.sound
    rw [World.table, hf] at htable
    exact htable
  rcases (w.stores p).refresh_cases hsound io.stat io.read with ⟨hsame, hunread⟩ | ⟨f, hf, hread⟩
  · rw [World.refreshed, hsame]
    refine ⟨hstore, fun hreadable => ?_⟩
    cases hfile : w.file with
    | none =>
        rw [hstore.empty hfile, World.table, hfile]
        rfl
    | some f =>
        have heq : (w.stores p).loaded = f.info := by
          by_contra hne
          exact hunread f hfile (Ne.symm hne) (hreadable f hfile (Ne.symm hne))
        rw [hstore.current f hfile heq, World.table, hfile]
        rfl
  · rw [World.refreshed, hread]
    refine ⟨⟨fun f' hf' _ => ?_, fun hnone => ?_, .inl (hw.infos f hf)⟩, fun _ => ?_⟩
    · obtain rfl := Option.some.inj (hf.symm.trans hf')
      rfl
    · rw [Option.mem_def.1 hf] at hnone
      cases hnone
    · rw [World.table, Option.mem_def.1 hf]
      rfl

lemma Kept.setStore (hw : w.Kept) (hs : w.Follows s) (p : Process) : (w.setStore p s).Kept where
  sound := hw.sound
  follows := by
    intro q
    have hq : w.Follows ((w.setStore p s).stores q) := by
      by_cases hqp : q = p
      · rw [hqp, setStore_self]
        exact hs
      · rw [setStore_of_ne hqp]
        exact hw.follows q
    exact ⟨hq.current, hq.empty, hq.known⟩
  infos := hw.infos
  sized := hw.sized
  dated := hw.dated
  minted := hw.minted
  signed := hw.signed

end Stores

/-! ## Rows that are committed -/

lemma rises_refl (w : World) : w.Rises w := fun old hold => ⟨old, hold, rfl, le_refl _⟩

/-- A row that is written raises its account's epoch for every change that is noted with it. -/
lemma Dated.put (hd : Dated t changed h) (ht : Keyed.Ascending Guardian.name t)
    (hnames : ∀ n ∈ names, n = g.name)
    (hraise : ∀ old ∈ t, old.name = g.name → old.sessionEpoch + names.length ≤ g.sessionEpoch) :
    Dated (Keyed.put Guardian.name g t) (names ++ changed) h := by
  obtain ⟨old, hold, hname, later, rfl, hepoch⟩ := hd
  by_cases hsame : old.name = g.name
  · refine ⟨g, Keyed.mem_put_self t g, hsame.symm.trans hname, names ++ later,
      (List.append_assoc ..).symm, ?_⟩
    have hrise := hraise old hold hsame
    have hcount : names.count g.name ≤ names.length := List.count_le_length
    rw [hsame] at hepoch
    rw [List.count_append]
    omega
  · have hnone : names.count old.name = 0 :=
      List.count_eq_zero.2 fun hmem => hsame (hnames _ hmem)
    refine ⟨old, ht.mem_put_iff.2 (.inr ⟨hold, hsame⟩), hname, names ++ later,
      (List.append_assoc ..).symm, ?_⟩
    rw [List.count_append, hnone]
    omega

lemma commit_of_written (hwritten : io.write.written = true) (g : Guardian) :
    w.commit p io g =
      { w.setStore p ((w.stores p).commit g io.write (if io.stamp then some io.info else none)) with
        file := some ⟨Keyed.put Guardian.name g (w.stores p).byName, io.info⟩
        infos := io.info :: w.infos } := by
  unfold World.commit
  exact if_pos hwritten

lemma commit_of_not_written (hwritten : io.write.written = false) (g : Guardian) :
    w.commit p io g = w.setStore p (w.stores p) := by
  have hok := WriteOutcome.ok_of_not_written hwritten
  unfold World.commit FileStore.commit
  simp only [hwritten, hok, Bool.false_eq_true, if_false]

lemma table_commit (w : World) (p : Process) (io : Io) (g : Guardian) :
    (w.commit p io g).table =
      if io.write.written then Keyed.put Guardian.name g (w.stores p).byName else w.table := by
  cases hwritten : io.write.written with
  | true =>
      rw [commit_of_written hwritten]
      rfl
  | false =>
      rw [commit_of_not_written hwritten]
      rfl

lemma changed_commit (w : World) (p : Process) (io : Io) (g : Guardian) :
    (w.commit p io g).changed = w.changed := by
  cases hwritten : io.write.written with
  | true =>
      rw [commit_of_written hwritten]
      rfl
  | false =>
      rw [commit_of_not_written hwritten]
      rfl

/-- A row may be committed to a table that is the file's, with notes of the changes that it makes up
for. -/
lemma Kept.commit [Runes] (hw : w.Kept) (htable : (w.stores p).byName = w.table)
    (hfresh : w.Fresh io) (hname : normalizeName g.name = some g.name) (hepoch : 1 ≤ g.sessionEpoch)
    (hnames : ∀ n ∈ names, n = g.name) (hwritten : io.write.written = false → names = [])
    (hraise : ∀ old ∈ w.table, old.name = g.name →
      old.sessionEpoch + names.length ≤ g.sessionEpoch) :
    ({ w.commit p io g with changed := names ++ (w.commit p io g).changed } : World).Kept := by
  rw [changed_commit]
  cases hcase : io.write.written with
  | false =>
      rw [hwritten hcase, commit_of_not_written hcase]
      exact hw.setStore (hw.follows p) p
  | true =>
      rw [commit_of_written hcase]
      exact
        { sound := by
            show Sound (Keyed.put Guardian.name g (w.stores p).byName)
            rw [htable]
            exact hw.sound.put hname hepoch
          follows := by
            intro q
            by_cases hqp : q = p
            · subst hqp
              show Follows _ ((w.setStore q _).stores q)
              rw [setStore_self]
              exact (hw.follows q).committed hfresh rfl rfl
            · show Follows _ ((w.setStore p _).stores q)
              rw [setStore_of_ne hqp]
              exact (hw.follows q).rewritten hfresh rfl rfl
          infos := by
            intro f hf
            obtain rfl := Option.some.inj hf
            exact List.mem_cons_self ..
          sized := by
            intro i hi
            rcases List.mem_cons.1 hi with rfl | hi
            · exact hfresh.1
            · exact hw.sized i hi
          dated := by
            intro h hh
            show Dated (Keyed.put Guardian.name g (w.stores p).byName) _ h
            rw [htable]
            exact (hw.dated h hh).put hw.sound.ascending hnames hraise
          minted := hw.minted
          signed := hw.signed }

/-! ## What the calls keep -/

lemma table_hold (verified : List String) (r : Except Err Guardian × World) :
    (hold verified r).table = r.2.table := by
  unfold World.hold
  cases r.1 with
  | error e => rfl
  | ok g => rfl

section Calls

variable [Runes] {r : Except Err Guardian × World} {name password hash norm : String}

/-- A call ends with the refreshed store, or with a row committed to it. -/
lemma call_cases (w : World) (p : Process) (io : Io) (row : Table → Except Err Guardian) :
    (∃ e, w.call p io row = (.error e, w.setStore p (w.refreshed p io))) ∨
      ∃ g, row (w.refreshed p io).byName = .ok g ∧
        w.call p io row = (if io.write.ok then .ok g else .error .persisting,
          (w.setStore p (w.refreshed p io)).commit p io g) := by
  unfold call
  cases hrow : row (w.refreshed p io).byName with
  | error e => exact .inl ⟨e, rfl⟩
  | ok g => exact .inr ⟨g, rfl, rfl⟩

/-- The world after a proper row was committed to the refreshed store. -/
lemma Kept.commit_refreshed (hw : w.Kept) (hread : w.Readable p io) (hfresh : w.Fresh io)
    (names : List String) (hg : Proper w.table g names.length) (hnames : ∀ n ∈ names, n = g.name)
    (hwritten : io.write.written = false → names = []) :
    let w' := (w.setStore p (w.refreshed p io)).commit p io g
    ({ w' with changed := names ++ w'.changed } : World).Kept ∧ w.Rises w' := by
  intro w'
  obtain ⟨hfollows, hbyName⟩ := hw.refreshed p io
  have hkept := hw.setStore hfollows p
  have htable : ((w.setStore p (w.refreshed p io)).stores p).byName = w.table := by
    rw [setStore_self]
    exact hbyName hread
  refine ⟨hkept.commit htable hfresh hg.named hg.counted hnames hwritten hg.raises, ?_⟩
  intro old hold
  rw [table_commit, htable]
  cases io.write.written with
  | false => exact ⟨old, hold, rfl, le_refl _⟩
  | true =>
      rw [if_pos rfl]
      by_cases hsame : old.name = g.name
      · have hraise := hg.raises old hold hsame
        exact ⟨g, Keyed.mem_put_self _ g, hsame.symm, by omega⟩
      · exact ⟨old, hw.sound.ascending.mem_put_iff.2 (.inr ⟨hold, hsame⟩), rfl, le_refl _⟩

lemma Kept.refresh (hw : w.Kept) (p : Process) (io : Io) :
    (w.setStore p (w.refreshed p io)).Kept := hw.setStore (hw.refreshed p io).1 p

lemma Kept.add [NameRunes] (hw : w.Kept) (hread : w.Readable p io) (hfresh : w.Fresh io) :
    (w.add p io name password hash).2.Kept ∧ w.Rises (w.add p io name password hash).2 := by
  unfold World.add
  cases hchecked : checked .invalidName name password with
  | error e => exact ⟨hw, rises_refl w⟩
  | ok norm =>
      simp only
      have hnorm := normalizeName_self (checked_eq_ok hchecked)
      rcases call_cases w p io (addedRow norm hash) with ⟨e, hcall⟩ | ⟨g, hrow, hcall⟩
      · rw [hcall]
        exact ⟨hw.refresh p io, rises_refl w⟩
      · rw [(hw.refreshed p io).2 hread] at hrow
        have hg := proper_addedRow hw.sound hnorm hrow
        obtain ⟨hkept, hrises⟩ := hw.commit_refreshed hread hfresh [] hg (by simp) (fun _ => rfl)
        rw [hcall]
        exact ⟨hkept, hrises⟩

/-- A change of password keeps what is kept, and raises the epoch where it succeeds. -/
lemma Kept.setPassword (hw : w.Kept) (hread : w.Readable p io) (hfresh : w.Fresh io)
    (name password hash : String) :
    (w.setPassword p io name password hash).2.Kept ∧
      w.Rises (w.setPassword p io name password hash).2 ∧
      w.Raises (w.setPassword p io name password hash) := by
  unfold World.setPassword
  cases hchecked : checked .noSuchGuardian name password with
  | error e => exact ⟨hw, rises_refl w, nofun⟩
  | ok norm =>
      simp only
      rcases call_cases w p io (changedRow norm hash) with ⟨e, hcall⟩ | ⟨g, hrow, hcall⟩
      · rw [hcall]
        exact ⟨hw.refresh p io, rises_refl w, nofun⟩
      · obtain ⟨hfollows, hbyName⟩ := hw.refreshed p io
        rw [hbyName hread] at hrow
        obtain ⟨hg, old, hold, hlt⟩ := proper_changedRow hw.sound hrow
        rw [hcall]
        cases hok : io.write.ok with
        | false =>
            obtain ⟨hkept, hrises⟩ := hw.commit_refreshed hread hfresh []
              (hg.mono (Nat.zero_le 1)) (by simp) (fun _ => rfl)
            exact ⟨hkept, hrises, nofun⟩
        | true =>
            have hwritten := WriteOutcome.written_of_ok hok
            obtain ⟨hkept, hrises⟩ := hw.commit_refreshed hread hfresh [g.name] hg (by simp)
              (fun hnot => absurd (hnot.symm.trans hwritten) Bool.false_ne_true)
            refine ⟨hkept, hrises, ?_⟩
            intro g' hg'
            obtain rfl := Except.ok.inj hg'
            refine ⟨old, hold, hlt, ?_⟩
            show get? ((w.setStore p (w.refreshed p io)).commit p io g).table g.name = some g
            rw [table_commit, hwritten, if_pos rfl, setStore_self, hbyName hread]
            exact hw.sound.get?_put_self hg.named hg.counted

lemma Kept.get (hw : w.Kept) : (w.get p io name).2.Kept := by
  unfold World.get
  cases normalizeName name with
  | none => exact hw
  | some norm => exact hw.refresh p io

/-- A row of the file may be given out. -/
lemma Kept.hold (hr : r.2.Kept) (verified : List String) (hg : ∀ g, r.1 = .ok g → g ∈ r.2.table) :
    (hold verified r).Kept := by
  unfold World.hold
  cases hcase : r.1 with
  | error e => exact hr
  | ok g =>
      exact
        { sound := hr.sound
          follows := fun p => ⟨(hr.follows p).current, (hr.follows p).empty, (hr.follows p).known⟩
          infos := hr.infos
          sized := hr.sized
          dated := by
            intro h hh
            rcases List.mem_append.1 hh with hh | hh
            · exact hr.dated h hh
            · obtain rfl := List.mem_singleton.1 hh
              refine ⟨g, hg g hcase, rfl, [], rfl, ?_⟩
              show g.sessionEpoch + 0 ≤ g.sessionEpoch
              omega
          minted := fun m hm => List.mem_append_left _ (hr.minted m hm)
          signed := hr.signed }

lemma Kept.mintSession (hw : w.Kept) (hh : h ∈ w.held) (now : ℤ) : (w.mintSession h now).Kept where
  sound := hw.sound
  follows := fun p => ⟨(hw.follows p).current, (hw.follows p).empty, (hw.follows p).known⟩
  infos := hw.infos
  sized := hw.sized
  dated := hw.dated
  minted := by
    intro m hm
    rcases List.mem_cons.1 hm with rfl | hm
    · exact hh
    · exact hw.minted m hm
  signed := by
    intro text htext
    rcases List.mem_cons.1 htext with rfl | htext
    · exact .inl ⟨_, List.mem_cons_self .., rfl⟩
    · refine (hw.signed text htext).imp_left ?_
      rintro ⟨m, hm, hpayload⟩
      exact ⟨m, List.mem_cons_of_mem _ hm, hpayload⟩

/-- A process that opens its store follows the file. -/
lemma Kept.follows_opened (hw : w.Kept) {stamp : Bool}
    (hopened : opened (w.file.map File.guardians)
      (if stamp then w.file.map File.info else none) = some s) : w.Follows s := by
  have hsound := hw.sound
  unfold table at hsound
  unfold opened at hopened
  cases hfile : w.file with
  | none =>
      rw [hfile] at hopened
      obtain rfl := Option.some.inj hopened
      exact ⟨fun f hf _ => absurd (hfile.symm.trans hf) nofun, fun _ => rfl, .inr rfl⟩
  | some f =>
      rw [hfile] at hsound hopened
      have hparse : parse f.guardians = some f.guardians := Sound.parse hsound
      simp only [Option.map_some, hparse, Option.some.injEq] at hopened
      obtain rfl := hopened
      have hnone : w.file ≠ none := fun hnone => absurd (hfile.symm.trans hnone) nofun
      cases stamp with
      | true =>
          refine ⟨fun f' hf' _ => ?_, fun h => absurd h hnone, .inl (hw.infos f hfile)⟩
          obtain rfl := Option.some.inj (hfile.symm.trans hf')
          rfl
      | false =>
          refine ⟨fun f' hf' _ => ?_, fun h => absurd h hnone, .inr rfl⟩
          obtain rfl := Option.some.inj (hfile.symm.trans hf')
          rfl

lemma table_get (w : World) (p : Process) (io : Io) (name : String) :
    (w.get p io name).2.table = w.table := by
  unfold World.get
  cases normalizeName name with
  | none => rfl
  | some norm => rfl

end Calls

/-! ## What every event keeps -/

section Step

variable [Runes] [Hmac] {e : Event} {value : List Char} {now : ℤ}

/-- Reading a cookie changes no more than the server's table. -/
lemma readSession_cases (w : World) (io : Io) (value : List Char) (now : ℤ) :
    (w.readSession io value now).2 = w ∨
      ∃ name, (w.readSession io value now).2 = (w.get .server io name).2 := by
  unfold readSession
  cases (openCookie w.cookieKey value).bind readPayload with
  | none => exact .inl rfl
  | some sess =>
      simp only
      by_cases hexpired : sess.expiry ≤ now
      · rw [if_pos hexpired]
        exact .inl rfl
      · rw [if_neg hexpired]
        cases text? sess.guardian with
        | none => exact .inl rfl
        | some name =>
            refine .inr ⟨name, ?_⟩
            simp only
            cases hget : w.get .server io name with
            | mk found w' =>
                cases found with
                | none => rfl
                | some g => rfl

/-- A cookie that is accepted was opened, is of an account in the refreshed table with its epoch,
and has not expired. -/
lemma readSession_eq_ok {sess : Session} (h : (w.readSession io value now).1 = .ok sess) :
    ∃ payload name g, openCookie w.cookieKey value = some payload ∧
      readPayload payload = some sess ∧ now < sess.expiry ∧ text? sess.guardian = some name ∧
      (w.get .server io name).1 = some g ∧ g.sessionEpoch = sess.epoch := by
  unfold readSession at h
  cases hopen : (openCookie w.cookieKey value).bind readPayload with
  | none =>
      rw [hopen] at h
      cases h
  | some sess' =>
      rw [hopen] at h
      simp only at h
      by_cases hexpired : sess'.expiry ≤ now
      · rw [if_pos hexpired] at h
        cases h
      rw [if_neg hexpired] at h
      obtain ⟨payload, hpayload, hread⟩ := Option.bind_eq_some_iff.1 hopen
      cases htext : text? sess'.guardian with
      | none =>
          rw [htext] at h
          cases h
      | some name =>
          rw [htext] at h
          simp only at h
          cases hget : w.get .server io name with
          | mk found w' =>
              rw [hget] at h
              cases found with
              | none => cases h
              | some g =>
                  by_cases hepoch : g.sessionEpoch = sess'.epoch
                  · simp only [ne_eq, hepoch, not_true, if_false] at h
                    obtain rfl := Except.ok.inj h
                    exact ⟨payload, name, g, hpayload, hread, not_le.1 hexpired, htext,
                      by rw [hget], hepoch⟩
                  · simp only [ne_eq, hepoch, not_false_iff, if_true] at h
                    cases h

variable [NameRunes] [Passwords]

/-- A step whose refreshes can read keeps what is kept, and lowers no epoch. -/
lemma Kept.step (hw : w.Kept) (hlegible : w.Legible e) (hstep : w.step e = some w') :
    w'.Kept ∧ w.Rises w' := by
  cases e with
  | start p io =>
      obtain ⟨-, hstart⟩ := Option.ite_none_right_eq_some.1 hstep
      obtain ⟨s, hopened, rfl⟩ := Option.map_eq_some_iff.1 hstart
      exact ⟨hw.setStore (hw.follows_opened hopened) p, rises_refl w⟩
  | add p name password hash io =>
      obtain ⟨hfresh, hadd⟩ := Option.ite_none_right_eq_some.1 hstep
      obtain rfl := Option.some.inj hadd
      exact hw.add hlegible hfresh
  | setPassword p name password hash io =>
      obtain ⟨hfresh, hset⟩ := Option.ite_none_right_eq_some.1 hstep
      obtain rfl := Option.some.inj hset
      obtain ⟨hkept, hrises, -⟩ := hw.setPassword hlegible hfresh name password hash
      exact ⟨hkept, hrises⟩
  | get p name io =>
      obtain rfl := Option.some.inj hstep
      refine ⟨hw.get, ?_⟩
      unfold Rises
      rw [table_get]
      exact rises_refl w
  | verify name password io =>
      obtain rfl := Option.some.inj hstep
      have hfound : ∀ g, Guardians.verify (w.refreshed .server io).byName name password = .ok g →
          g ∈ (w.setStore .server (w.refreshed .server io)).table := by
        intro g hg
        have hmem := mem_of_verify hg
        rw [(hw.refreshed .server io).2 hlegible] at hmem
        exact hmem
      refine ⟨?_, ?_⟩
      · apply Kept.hold
        · exact hw.refresh .server io
        · dsimp only
          exact hfound
      · unfold Rises
        rw [table_hold]
        exact rises_refl w
  | change i password hash io =>
      obtain ⟨hfresh, hchange⟩ := Option.ite_none_right_eq_some.1 hstep
      obtain ⟨h, -, rfl⟩ := Option.map_eq_some_iff.1 hchange
      obtain ⟨hkept, hrises, hraises⟩ :=
        hw.setPassword hlegible hfresh h.guardian.name password hash
      refine ⟨hkept.hold h.verified fun g hg => ?_, ?_⟩
      · obtain ⟨-, -, -, hget⟩ := hraises g hg
        exact (mem_of_get?_eq_some hget).1
      · unfold Rises
        rw [table_hold]
        exact hrises
  | mint i now =>
      obtain ⟨h, hh, rfl⟩ := Option.map_eq_some_iff.1 hstep
      exact ⟨hw.mintSession (List.mem_of_getElem? hh) now, rises_refl w⟩
  | csrf guardian epoch nonce =>
      obtain rfl := Option.some.inj hstep
      refine ⟨{ hw with follows := fun p => ?_, signed := fun text htext => ?_ }, rises_refl w⟩
      · exact ⟨(hw.follows p).current, (hw.follows p).empty, (hw.follows p).known⟩
      · rcases List.mem_cons.1 htext with rfl | htext
        · exact .inr ⟨guardian, epoch, nonce, rfl⟩
        · exact hw.signed text htext
  | read value now io =>
      obtain rfl := Option.some.inj hstep
      rcases readSession_cases w io value now with hsame | ⟨name, hget⟩
      · rw [hsame]
        exact ⟨hw, rises_refl w⟩
      · rw [hget]
        refine ⟨hw.get, ?_⟩
        unfold Rises
        rw [table_get]
        exact rises_refl w

omit [NameRunes] [Passwords] in
/-- Every cookie that is accepted is backed, where the refresh can read and the MAC is unforged. -/
lemma Kept.backed (hw : w.Kept) (hunforged : w.Unforged e) (hlegible : w.Legible e) :
    w.Backed Held.left e := by
  cases e with
  | read value now io =>
      show w.BackedBy Held.left value now (w.readSession io value now).1
      cases hread : (w.readSession io value now).1 with
      | error e => trivial
      | ok sess =>
          obtain ⟨payload, name, g, hopen, hpayload, hnow, htext, hget, hepoch⟩ :=
            readSession_eq_ok hread
          have hminted : ∃ m ∈ w.minted, payload = m.payload := by
            rcases hw.signed _ (hunforged payload hopen) with ⟨m, hm, heq⟩ | ⟨_, _, _, heq⟩
            · exact ⟨m, hm, sessionText_injective heq⟩
            · exact absurd heq.symm (csrfText_ne_sessionText _ _ _ _)
          obtain ⟨m, hm, rfl⟩ := hminted
          obtain ⟨row, hrow, hname, later, hchanged, hcount⟩ := hw.dated m.held (hw.minted m hm)
          have hnamed := hw.sound.named row hrow
          have hchars := all_of_normalizeName hnamed
          rw [hname] at hchars hnamed
          obtain rfl := readPayload_sessionPayload hchars hpayload
          obtain rfl := Option.some.inj ((text?_utf8 _).symm.trans htext)
          -- The account in the refreshed table is the one in the file.
          have hsame : g = row := by
            unfold World.get at hget
            rw [hnamed, (hw.refreshed .server io).2 hlegible] at hget
            obtain ⟨hg, hgname⟩ := hw.sound.get?_eq_some.1 hget
            exact hw.sound.ascending.eq_of_key_eq hg hrow (hgname.trans hname.symm)
          subst hsame
          have hexpiry : unix m.expiry * second ≤ m.expiry :=
            Int.ediv_mul_le m.expiry (by decide)
          have hunchanged : m.held.guardian.name ∉ later := by
            have hepoch' : g.sessionEpoch = m.held.guardian.sessionEpoch := hepoch
            rw [← hname, ← List.count_eq_zero]
            omega
          refine ⟨m, hm, ?_, rfl, lt_of_lt_of_le hnow hexpiry, ?_, ?_⟩
          · unfold openCookie at hopen
            cases hdecode : decodeCookie value with
            | none =>
                rw [hdecode] at hopen
                cases hopen
            | some parts =>
                rw [hdecode] at hopen
                simp only at hopen
                obtain ⟨-, hpart⟩ := Option.ite_none_right_eq_some.1 hopen
                exact hpart
          · exact ⟨later, hchanged.symm⟩
          · rw [hchanged, List.length_append, Nat.add_sub_cancel, List.take_left]
            exact hunchanged
  | start p io => trivial
  | add p name password hash io => trivial
  | setPassword p name password hash io => trivial
  | get p name io => trivial
  | verify name password io => trivial
  | change i password hash io => trivial
  | mint i now => trivial
  | csrf guardian epoch nonce => trivial

lemma Kept.climbs (hw : w.Kept) (hlegible : w.Legible e) : w.Climbs e := by
  intro w' hstep
  refine ⟨(hw.step hlegible hstep).2, ?_⟩
  cases e with
  | setPassword p name password hash io =>
      obtain ⟨hfresh, -⟩ := Option.ite_none_right_eq_some.1 hstep
      exact (hw.setPassword hlegible hfresh name password hash).2.2
  | change i password hash io =>
      obtain ⟨hfresh, -⟩ := Option.ite_none_right_eq_some.1 hstep
      intro h _
      exact (hw.setPassword hlegible hfresh h.guardian.name password hash).2.2
  | start p io => trivial
  | add p name password hash io => trivial
  | get p name io => trivial
  | verify name password io => trivial
  | mint i now => trivial
  | csrf guardian epoch nonce => trivial
  | read value now io => trivial

omit [Hmac] [NameRunes] [Passwords] in
lemma kept_initial (cookieKey : Bytes) : (initial cookieKey).Kept where
  sound := sound_nil
  follows := fun _ => ⟨nofun, fun _ => rfl, .inr rfl⟩
  infos := nofun
  sized := nofun
  dated := nofun
  minted := nofun
  signed := nofun

/-- A payload names one session.  In every run in which no MAC is forged and every store that finds
the file changed can read it, a cookie is accepted only where a session with its payload was minted
for the guardian, it has not expired, and the guardian's password was not changed since the row left
the store; and each change of a password raises the account's epoch, which nothing lowers. -/
theorem sessions_end_with_password (cookieKey : Bytes) (es : List Event)
    (h : Run.Meets step (fun w e => w.Unforged e ∧ w.Legible e) (initial cookieKey) es) :
    (∀ name name' g g' t t' epoch epoch', normalizeName name = some g →
      normalizeName name' = some g' →
      sessionPayload g t epoch = sessionPayload g' t' epoch' →
      g = g' ∧ unix t = unix t' ∧ epoch = epoch') ∧
      Run.Meets step (fun w e => w.Backed Held.left e ∧ w.Climbs e) (initial cookieKey) es := by
  constructor
  · intro name name' g g' t t' epoch epoch' hg hg' hpayload
    exact sessionPayload_injective (all_of_normalizeName hg) (all_of_normalizeName hg') hpayload
  · have hkept := Run.Meets.with_invariant (I := Kept)
      (fun w e w' hw hC hstep => (hw.step hC.2 hstep).1) (kept_initial cookieKey) h
    refine hkept.imp fun w e hwe => ?_
    obtain ⟨hw, hunforged, hlegible⟩ := hwe
    exact ⟨hw.backed hunforged hlegible, hw.climbs hlegible⟩

end Step
end World

namespace Sample

/-- The first bytes of the key and the text. -/
@[reducible]
def headHmac : Hmac := ⟨fun key text => (key ++ text).take 32⟩

def cookieKey : Bytes := Pututu.ascii "key".toList

/-- `ana` has an account, signs in, and has a session minted. -/
def signsIn : List Event :=
  [.start .server {}, .add .server "ana" "secretsecret" "secretsecret" { info := ⟨some 1, 1⟩ },
    .verify "ana" "secretsecret" {}, .mint 0 0]

/-- The cookie of an epoch. -/
def cookie (epoch : ℤ) : List Char :=
  @cookieOf headHmac cookieKey (sessionPayload "ana" sessionLifetime epoch)

end Sample

namespace World

theorem sessions_end_with_password_signsIn :
    @Run.Meets _ _ (@step Sample.runes Login.Sample.passwords Sample.headHmac)
      (fun w e => @Backed Sample.runes Sample.headHmac w Held.left e ∧
        @Climbs Sample.runes Login.Sample.passwords Sample.headHmac w e)
      (initial Sample.cookieKey) (Sample.signsIn ++ [.read (Sample.cookie 1) 5 {}]) :=
  (@sessions_end_with_password Sample.runes Sample.headHmac Sample.nameRunes Login.Sample.passwords
    Sample.cookieKey _ (by decide +kernel)).2

/-- The guardian who changed the password stays signed in; and a server that cannot read the file
goes on accepting a cookie after `wasi useradd` has changed the password. -/
theorem sessions_outlive_password :
    ¬ @SessionsEnd Sample.runes Login.Sample.passwords Sample.headHmac
        (fun w e => @Unforged Sample.headHmac w e ∧ w.Legible e) Held.verified ∧
      ¬ @SessionsEnd Sample.runes Login.Sample.passwords Sample.headHmac
        (fun w e => @Unforged Sample.headHmac w e) Held.left := by
  constructor
  · intro h
    have hbacked := h Sample.cookieKey
      (Sample.signsIn ++ [.change 0 "changedsecret" "changedsecret" { info := ⟨some 2, 1⟩ },
        .mint 1 0, .read (Sample.cookie 2) 5 {}]) (by decide +kernel)
    revert hbacked
    decide +kernel
  · intro h
    have hbacked := h Sample.cookieKey
      (Sample.signsIn ++ [.start (.cli 0) {},
        .setPassword (.cli 0) "ana" "changedsecret" "changedsecret" { info := ⟨some 2, 1⟩ },
        .read (Sample.cookie 1) 5 { read := false }]) (by decide +kernel)
    revert hbacked
    decide +kernel

end World
end Chaskiwasi.Guardians
