import Chaskiwasi.Device.Outbox
import Chaskiwasi.Lib.Keyed
import Chaskiwasi.Web.Login

/-!
# The guardians' file

`guardians.toml` holds a row for every account, in the order of their names.  A process that uses it
keeps the table in memory, with the modification time and the size of the file it was read from, and
reads the file again where these have changed.  Every write is of the whole table.

A row carries the account's session epoch, which each change of the password raises.
-/

namespace Chaskiwasi.Guardians

/-! ## Names -/

def isNameChar (c : Char) : Bool :=
  ('a' ≤ c && c ≤ 'z') || ('0' ≤ c && c ≤ '9') || c = '.' || c = '-' || c = '_'

/-- The characters of a name are in lower case. -/
class NameRunes [Runes] : Prop where
  toLower_of_isNameChar : ∀ c, isNameChar c = true → Runes.toLower c = c

section Names

variable {c : Char} {name norm : String}

lemma toNat_of_isNameChar (h : isNameChar c = true) :
    33 ≤ c.toNat ∧ c.toNat < 128 ∧ (c.toNat < 65 ∨ 90 < c.toNat) := by
  have hle : ∀ a b : Char, a ≤ b → a.toNat ≤ b.toNat := fun _ _ hab => hab
  simp only [isNameChar, Bool.or_eq_true, Bool.and_eq_true, decide_eq_true_eq] at h
  rcases h with (((⟨ha, hz⟩ | ⟨h0, h9⟩) | rfl) | rfl) | rfl
  · have hlow : 97 ≤ c.toNat := hle _ _ ha
    have hhigh : c.toNat ≤ 122 := hle _ _ hz
    omega
  · have hlow : 48 ≤ c.toNat := hle _ _ h0
    have hhigh : c.toNat ≤ 57 := hle _ _ h9
    omega
  · decide
  · decide
  · decide

lemma isSpace_of_isNameChar (h : isNameChar c = true) : isSpace c = false := by
  obtain ⟨hlow, hhigh, -⟩ := toNat_of_isNameChar h
  exact isSpace_of_toNat (by omega) (by omega)

lemma all_of_normalizeName [Runes] (h : normalizeName name = some norm) :
    norm.toList.all isNameChar = true := by
  unfold normalizeName at h
  simp only at h
  split_ifs at h with hempty hall
  obtain rfl := Option.some.inj h
  exact hall

/-- A name in the form it is kept in is its own. -/
lemma normalizeName_self [Runes] [NameRunes] (h : normalizeName name = some norm) :
    normalizeName norm = some norm := by
  have hall := all_of_normalizeName h
  have hchars : ∀ c ∈ norm.toList, isNameChar c = true := List.all_eq_true.1 hall
  have htrim : ∀ s : List Char, (∀ c ∈ s, isNameChar c = true) → trimLeft s = s := by
    intro s hs
    cases s with
    | nil => rfl
    | cons c s =>
        have hc := isSpace_of_isNameChar (hs c (List.mem_cons_self ..))
        simp [trimLeft, hc]
  have hreverse : ∀ c ∈ norm.toList.reverse, isNameChar c = true :=
    fun c hc => hchars c (List.mem_reverse.1 hc)
  have hlower : norm.toList.map Runes.toLower = norm.toList := by
    refine (List.map_congr_left fun c hc => ?_).trans (List.map_id _)
    exact NameRunes.toLower_of_isNameChar c (hchars c hc)
  have hsize : ¬ (norm = "" ∨ 32 < norm.utf8ByteSize) := by
    unfold normalizeName at h
    simp only at h
    split_ifs at h with hempty hall'
    obtain rfl := Option.some.inj h
    exact hempty
  unfold normalizeName
  simp only
  rw [trimSpace, htrim _ hchars, htrim _ hreverse, List.reverse_reverse, hlower,
    String.ofList_toList, if_neg hsize]
  exact if_pos hall

end Names

lemma Sample.nameRunes : @NameRunes Sample.runes := by
  refine @NameRunes.mk Sample.runes fun c hc => ?_
  show c.toLower = c
  obtain ⟨-, -, hcase⟩ := toNat_of_isNameChar hc
  have hupper : ¬ (c.val ≥ 'A'.val ∧ c.val ≤ 'Z'.val) := by
    rintro ⟨hge, hle⟩
    have hlow : 65 ≤ c.toNat := hge
    have hhigh : c.toNat ≤ 90 := hle
    omega
  exact dif_neg hupper

/-! ## The rows and the file -/

structure Guardian where
  name : String
  passwordHash : String
  /-- An `int`, which no account's changes of password are many enough to overflow. -/
  sessionEpoch : ℤ
  deriving DecidableEq, Repr

/-- The rows in the order of their names, as they are written. -/
abbrev Table := List Guardian

def get? (t : Table) (name : String) : Option Guardian := t.find? fun g => g.name = name

/-- What `os.Stat` tells of a file. -/
structure Info where
  /-- `none` is the zero time. -/
  modTime : Option ℤ := none
  size : ℕ := 0
  deriving DecidableEq, Repr

structure File where
  guardians : List Guardian
  info : Info
  deriving DecidableEq, Repr

inductive Err
  | invalidName
  | weakPassword
  | exists
  | noSuchGuardian
  | badCredentials
  | persisting
  deriving DecidableEq, Repr

def minPasswordLen : ℕ := 12

def checkPassword (password : String) : Except Err Unit :=
  if password.utf8ByteSize < minPasswordLen then .error .weakPassword else .ok ()

section Calls

variable [Runes]

/-- One row, entered under its name. -/
def parseRow (t : Table) (g : Guardian) : Option Table :=
  match normalizeName g.name with
  | none => none
  | some name =>
      if g.sessionEpoch < 1 then none
      else some (Keyed.put Guardian.name { g with name := name } t)

def parse (data : List Guardian) : Option Table := data.foldlM parseRow []

/-- What `Add` and `SetPassword` check before they look at the table: the name as it is kept. -/
def checked (invalid : Err) (name password : String) : Except Err String :=
  match normalizeName name with
  | none => .error invalid
  | some norm => (checkPassword password).map fun _ => norm

/-- The row of a new account. -/
def addedRow (norm hash : String) (t : Table) : Except Err Guardian :=
  match get? t norm with
  | some _ => .error .exists
  | none => .ok { name := norm, passwordHash := hash, sessionEpoch := 1 }

/-- The row of an account with a new password: the next epoch. -/
def changedRow (norm hash : String) (t : Table) : Except Err Guardian :=
  match get? t norm with
  | none => .error .noSuchGuardian
  | some g => .ok { g with passwordHash := hash, sessionEpoch := g.sessionEpoch + 1 }

/-- `Get`, from the refreshed table. -/
def get (t : Table) (name : String) : Option Guardian := (normalizeName name).bind (get? t)

/-- `Verify`, from the refreshed table. -/
def verify [Passwords] (t : Table) (name password : String) : Except Err Guardian :=
  match get t name with
  | none => .error .badCredentials
  | some g =>
      if Passwords.verifyPassword g.passwordHash password then .ok g else .error .badCredentials

end Calls

structure FileStore where
  byName : Table := []
  /-- The modification time and the size of the file as it was last read or written. -/
  loaded : Info := {}
  deriving DecidableEq, Repr

namespace FileStore

section Defs

variable [Runes] (s : FileStore)

/-- `refreshLocked`, from what `os.Stat` and `os.ReadFile` bring; `none` is an error. -/
def refresh (stat : Option Info) (data : Option (List Guardian)) : FileStore :=
  match stat with
  | none => s
  | some info =>
      if info = s.loaded then s
      else
        match data.bind parse with
        | none => s
        | some t => { byName := t, loaded := info }

/-- `stampLocked`. -/
def stamp (stat : Option Info) : FileStore :=
  match stat with
  | none => s
  | some info => { s with loaded := info }

/-- The store after `commitLocked`, where the write ended as `o`; after an error it is rolled
back. -/
def commit (g : Guardian) (o : WriteOutcome) (stat : Option Info) : FileStore :=
  if o.ok then ({ s with byName := Keyed.put Guardian.name g s.byName } : FileStore).stamp stat
  else s

end Defs
end FileStore

/-- `Open`, from the rows in the file, if there is one. -/
def opened [Runes] (data : Option (List Guardian)) (stat : Option Info) : Option FileStore :=
  match data with
  | none => some {}
  | some data => (parse data).map fun t => ({ byName := t } : FileStore).stamp stat

/-! ## Tables that read back as they were written -/

/-- The rows are in order, each under a name as names are kept and with an epoch of at least one. -/
structure Sound [Runes] (t : Table) : Prop where
  ascending : Keyed.Ascending Guardian.name t
  named : ∀ g ∈ t, normalizeName g.name = some g.name
  counted : ∀ g ∈ t, 1 ≤ g.sessionEpoch

section Sound

variable [Runes] {t : Table} {g old : Guardian} {name norm hash : String}

lemma sound_nil : Sound [] where
  ascending := List.Pairwise.nil
  named := by simp
  counted := by simp

lemma Sound.put (h : Sound t) (hname : normalizeName g.name = some g.name)
    (hepoch : 1 ≤ g.sessionEpoch) : Sound (Keyed.put Guardian.name g t) where
  ascending := h.ascending.put g
  named := by
    intro g' hg'
    rcases Keyed.mem_of_mem_put hg' with rfl | hg'
    · exact hname
    · exact h.named g' hg'
  counted := by
    intro g' hg'
    rcases Keyed.mem_of_mem_put hg' with rfl | hg'
    · exact hepoch
    · exact h.counted g' hg'

/-- What is written reads back. -/
lemma Sound.parse (h : Sound t) : Guardians.parse t = some t := by
  have hrows : ∀ (rest acc : Table), Sound (acc ++ rest) →
      rest.foldlM parseRow acc = some (acc ++ rest) := by
    intro rest
    induction rest with
    | nil =>
        intro acc _
        rw [List.append_nil]
        rfl
    | cons g rest ih =>
        intro acc hsound
        have hmem : g ∈ acc ++ g :: rest :=
          List.mem_append_right _ (List.mem_cons_self ..)
        have habove : ∀ x ∈ acc, x.name < g.name := fun x hx =>
          (List.pairwise_append.1 hsound.ascending).2.2 x hx g (List.mem_cons_self ..)
        have hrow : parseRow acc g = some (acc ++ [g]) := by
          unfold parseRow
          have hepoch := hsound.counted g hmem
          rw [hsound.named g hmem]
          simp only
          rw [if_neg (by omega), Keyed.put_of_above habove]
        rw [List.foldlM_cons, hrow]
        change rest.foldlM parseRow (acc ++ [g]) = _
        rw [ih (acc ++ [g]) (by rwa [List.append_assoc]), List.append_assoc]
        rfl
  exact hrows t [] h

lemma Sound.get?_eq_some (h : Sound t) : get? t name = some g ↔ g ∈ t ∧ g.name = name :=
  Keyed.find?_eq_some_iff h.ascending.nodup_map

/-- A written row is found under its name. -/
lemma Sound.get?_put_self (h : Sound t) (hname : normalizeName g.name = some g.name)
    (hepoch : 1 ≤ g.sessionEpoch) : get? (Keyed.put Guardian.name g t) g.name = some g :=
  (h.put hname hepoch).get?_eq_some.2 ⟨Keyed.mem_put_self t g, rfl⟩

omit [Runes] in
/-- A new row is under the name it was asked for, with the first epoch, and the name was free. -/
lemma addedRow_eq_ok (h : addedRow norm hash t = .ok g) :
    g = { name := norm, passwordHash := hash, sessionEpoch := 1 } ∧ get? t norm = none := by
  unfold addedRow at h
  cases hget : get? t norm with
  | some old =>
      rw [hget] at h
      cases h
  | none =>
      rw [hget] at h
      exact ⟨(Except.ok.inj h).symm, rfl⟩

omit [Runes] in
/-- A changed row has the epoch after the one that was there. -/
lemma changedRow_eq_ok (h : changedRow norm hash t = .ok g) :
    ∃ old, get? t norm = some old ∧
      g = { old with passwordHash := hash, sessionEpoch := old.sessionEpoch + 1 } := by
  unfold changedRow at h
  cases hget : get? t norm with
  | none =>
      rw [hget] at h
      cases h
  | some old =>
      rw [hget] at h
      exact ⟨old, rfl, (Except.ok.inj h).symm⟩

lemma checked_eq_ok {invalid : Err} {password : String}
    (h : checked invalid name password = .ok norm) : normalizeName name = some norm := by
  unfold checked at h
  cases hname : normalizeName name with
  | none =>
      rw [hname] at h
      cases h
  | some n =>
      rw [hname] at h
      simp only at h
      cases hpass : checkPassword password with
      | error e =>
          rw [hpass] at h
          cases h
      | ok u =>
          rw [hpass] at h
          exact congrArg some (Except.ok.inj h)

/-- A row that may be committed to a table: it raises the epoch of the account by so much. -/
structure Proper (t : Table) (g : Guardian) (n : ℕ) : Prop where
  named : normalizeName g.name = some g.name
  counted : 1 ≤ g.sessionEpoch
  raises : ∀ old ∈ t, old.name = g.name → old.sessionEpoch + n ≤ g.sessionEpoch

lemma Proper.mono {m n : ℕ} (hg : Proper t g n) (hmn : m ≤ n) : Proper t g m where
  named := hg.named
  counted := hg.counted
  raises := by
    intro old hold hname
    have hraise := hg.raises old hold hname
    omega

lemma proper_addedRow (ht : Sound t) (hnorm : normalizeName norm = some norm)
    (hrow : addedRow norm hash t = .ok g) : Proper t g 0 := by
  obtain ⟨rfl, hnone⟩ := addedRow_eq_ok hrow
  refine ⟨hnorm, le_refl _, fun old hold hname => ?_⟩
  rw [ht.get?_eq_some.2 ⟨hold, hname⟩] at hnone
  cases hnone

lemma proper_changedRow (ht : Sound t) (hrow : changedRow norm hash t = .ok g) :
    Proper t g 1 ∧ ∃ old, get? t g.name = some old ∧ old.sessionEpoch < g.sessionEpoch := by
  obtain ⟨old, hget, rfl⟩ := changedRow_eq_ok hrow
  obtain ⟨hold, rfl⟩ := ht.get?_eq_some.1 hget
  have hepoch := ht.counted old hold
  refine ⟨⟨ht.named old hold, ?_, fun other hother hname => ?_⟩, old, hget, ?_⟩
  · show 1 ≤ old.sessionEpoch + 1
    omega
  · rw [ht.ascending.eq_of_key_eq hother hold hname]
    exact le_refl _
  · show old.sessionEpoch < old.sessionEpoch + 1
    omega

omit [Runes] in
lemma mem_of_get?_eq_some (h : get? t name = some g) : g ∈ t ∧ g.name = name :=
  ⟨List.mem_of_find?_eq_some h, by simpa using List.find?_some h⟩

/-- A row is verified from the table. -/
lemma mem_of_verify [Passwords] {password : String} (h : verify t name password = .ok g) :
    g ∈ t := by
  unfold verify get at h
  cases hget : (normalizeName name).bind (get? t) with
  | none =>
      rw [hget] at h
      cases h
  | some g' =>
      rw [hget] at h
      simp only at h
      obtain ⟨norm, -, hrow⟩ := Option.bind_eq_some_iff.1 hget
      by_cases hpass : Passwords.verifyPassword g'.passwordHash password = true
      · rw [if_pos hpass] at h
        obtain rfl := Except.ok.inj h
        exact (mem_of_get?_eq_some hrow).1
      · rw [if_neg hpass] at h
        cases h

/-- A refresh leaves the store as it was, unless it reads the file. -/
lemma FileStore.refresh_cases (s : FileStore) {file : Option File}
    (hsound : ∀ f ∈ file, Sound f.guardians) (statOk readOk : Bool) :
    let s' := s.refresh (if statOk then file.map File.info else none)
      (if readOk then file.map File.guardians else none)
    (s' = s ∧ ∀ f ∈ file, f.info ≠ s.loaded → ¬ (statOk = true ∧ readOk = true)) ∨
      ∃ f ∈ file, s' = { byName := f.guardians, loaded := f.info } := by
  intro s'
  cases hfile : file with
  | none =>
      have hsame : s' = s := by
        show s.refresh _ _ = s
        rw [hfile]
        cases statOk with
        | true => rfl
        | false => rfl
      exact .inl ⟨hsame, nofun⟩
  | some f =>
      have hparse : parse f.guardians = some f.guardians := (hsound f hfile).parse
      have hrefresh : s' = s.refresh (if statOk then some f.info else none)
          (if readOk then some f.guardians else none) := by
        show s.refresh _ _ = _
        rw [hfile]
        rfl
      rw [hrefresh]
      unfold FileStore.refresh
      cases statOk with
      | false => exact .inl ⟨rfl, fun _ _ _ hok => Bool.false_ne_true hok.1⟩
      | true =>
          simp only [if_true]
          by_cases heq : f.info = s.loaded
          · rw [if_pos heq]
            refine .inl ⟨rfl, fun f' hf' hne => ?_⟩
            obtain rfl := Option.some.inj hf'
            exact absurd heq hne
          · rw [if_neg heq]
            cases readOk with
            | false => exact .inl ⟨rfl, fun _ _ _ hok => Bool.false_ne_true hok.2⟩
            | true =>
                refine .inr ⟨f, rfl, ?_⟩
                simp only [if_true, Option.bind_some, hparse]

end Sound
end Chaskiwasi.Guardians
