import Chaskiwasi.Web.Site

/-!
# What the calls on the accounts leave

A call of the site, or of `wasi useradd` next to it, on the store of the accounts may write the row
that it is about.  The rows of the others stay as they are, what was minted and signed stays
(`Carries`), and a row that is given out for a password is the account's.
-/

namespace Chaskiwasi.Site

open Guardians (Hmac Io Held)

/-- What was minted and given out stays. -/
structure Carries (w w' : Guardians.World) : Prop where
  minted : w'.minted = w.minted
  signed : w'.signed = w.signed
  held : ∀ h ∈ w.held, h ∈ w'.held

section Carries

variable {w w' w'' : Guardians.World} {io : Io} {p : Guardians.Process}

lemma carries_refl (w : Guardians.World) : Carries w w := ⟨rfl, rfl, fun _ h => h⟩

lemma Carries.trans (h : Carries w w') (h' : Carries w' w'') : Carries w w'' :=
  ⟨h'.minted.trans h.minted, h'.signed.trans h.signed, fun a ha => h'.held a (h.held a ha)⟩

lemma carries_commit (w : Guardians.World) (p : Guardians.Process) (io : Io)
    (g : Guardians.Guardian) : Carries w (w.commit p io g) := by
  cases hwritten : io.write.written with
  | true =>
      rw [Guardians.World.commit_of_written hwritten]
      exact ⟨rfl, rfl, fun _ h => h⟩
  | false =>
      rw [Guardians.World.commit_of_not_written hwritten]
      exact ⟨rfl, rfl, fun _ h => h⟩

variable [Runes] {name password hash : String}

lemma carries_call (w : Guardians.World) (p : Guardians.Process) (io : Io)
    (row : Guardians.Table → Except Guardians.Err Guardians.Guardian) :
    Carries w (w.call p io row).2 := by
  have hset : Carries w (w.setStore p (w.refreshed p io)) := ⟨rfl, rfl, fun _ h => h⟩
  rcases Guardians.World.call_cases w p io row with ⟨e, hcall⟩ | ⟨g, -, hcall⟩
  · rw [hcall]
    exact hset
  · rw [hcall]
    exact hset.trans (carries_commit ..)

lemma carries_add (w : Guardians.World) (p : Guardians.Process) (io : Io)
    (name password hash : String) : Carries w (w.add p io name password hash).2 := by
  unfold Guardians.World.add
  cases Guardians.checked .invalidName name password with
  | error e => exact carries_refl w
  | ok norm => exact carries_call ..

lemma carries_setPassword (w : Guardians.World) (p : Guardians.Process) (io : Io)
    (name password hash : String) : Carries w (w.setPassword p io name password hash).2 := by
  unfold Guardians.World.setPassword
  cases Guardians.checked .noSuchGuardian name password with
  | error e => exact carries_refl w
  | ok norm =>
      have hcall := carries_call w p io (Guardians.changedRow norm hash)
      simp only [Guardians.World.note]
      cases (w.call p io (Guardians.changedRow norm hash)).1 with
      | error e => exact hcall
      | ok g => exact ⟨hcall.minted, hcall.signed, hcall.held⟩

lemma carries_get (w : Guardians.World) (p : Guardians.Process) (io : Io) (name : String) :
    Carries w (w.get p io name).2 := by
  unfold Guardians.World.get
  cases normalizeName name with
  | none => exact carries_refl w
  | some norm => exact ⟨rfl, rfl, fun _ h => h⟩

lemma carries_readSession [Hmac] (w : Guardians.World) (io : Io) (value : List Char) (now : ℤ) :
    Carries w (w.readSession io value now).2 := by
  rcases Guardians.World.readSession_cases w io value now with hsame | ⟨name, hget⟩
  · rw [hsame]
    exact carries_refl w
  · rw [hget]
    exact carries_get ..

lemma carries_start [Passwords] [Hmac]
    (h : w.step (.start p io) = some w') : Carries w w' ∧ w'.table = w.table := by
  obtain ⟨-, hstart⟩ := Option.ite_none_right_eq_some.1 h
  obtain ⟨store, -, rfl⟩ := Option.map_eq_some_iff.1 hstart
  exact ⟨⟨rfl, rfl, fun _ h => h⟩, rfl⟩

/-- A process next to the server mints nothing. -/
lemma carries_byCli [Passwords] [Hmac] {e : Guardians.Event} (hcli : byCli e = true)
    (h : w.step e = some w') : Carries w w' := by
  cases e with
  | start p io => exact (carries_start h).1
  | add p name password hash io =>
      obtain ⟨-, hadd⟩ := Option.ite_none_right_eq_some.1 h
      obtain rfl := Option.some.inj hadd
      exact carries_add ..
  | setPassword p name password hash io =>
      obtain ⟨-, hset⟩ := Option.ite_none_right_eq_some.1 h
      obtain rfl := Option.some.inj hset
      exact carries_setPassword ..
  | get p name io =>
      obtain rfl := Option.some.inj h
      exact carries_get ..
  | verify name password io => cases hcli
  | change i password hash io => cases hcli
  | mint i now => cases hcli
  | csrf guardian epoch nonce => cases hcli
  | read value now io => cases hcli

lemma table_readSession [Hmac] (w : Guardians.World) (io : Io) (value : List Char) (now : ℤ) :
    (w.readSession io value now).2.table = w.table := by
  rcases Guardians.World.readSession_cases w io value now with hsame | ⟨name, hget⟩
  · rw [hsame]
  · rw [hget, Guardians.World.table_get]

/-- The server verifies a password as the store does. -/
lemma verify_snd [Passwords] (w : Guardians.World) (io : Io) (name password : String) :
    (verify w io name password).2 =
      Guardians.World.hold w.changed
        (Guardians.verify (w.refreshed .server io).byName name password,
          w.setStore .server (w.refreshed .server io)) := by
  unfold verify Guardians.World.hold
  cases Guardians.verify (w.refreshed .server io).byName name password with
  | error e => rfl
  | ok g => rfl

lemma carries_verify [Passwords] (w : Guardians.World) (io : Io) (name password : String) :
    Carries w (verify w io name password).2 := by
  unfold verify
  cases Guardians.verify (w.refreshed .server io).byName name password with
  | error e => exact ⟨rfl, rfl, fun _ h => h⟩
  | ok g => exact ⟨rfl, rfl, fun _ h => List.mem_append_left _ h⟩

lemma table_verify [Passwords] (w : Guardians.World) (io : Io) (name password : String) :
    (verify w io name password).2.table = w.table := by
  rw [verify_snd, Guardians.World.table_hold]
  rfl

/-- A row that is given out is the account's, and the password is the one it has. -/
lemma verify_eq_some [Passwords] {h : Held} (hv : (verify w io name password).1 = some h) :
    h ∈ (verify w io name password).2.held ∧ normalizeName name = some h.guardian.name ∧
      Passwords.verifyPassword h.guardian.passwordHash password = true := by
  unfold verify at hv ⊢
  cases hcall : Guardians.verify (w.refreshed .server io).byName name password with
  | error e =>
      rw [hcall] at hv
      cases hv
  | ok g =>
      rw [hcall] at hv
      obtain rfl := Option.some.inj hv
      refine ⟨List.mem_append_right _ (List.mem_singleton_self _), ?_⟩
      unfold Guardians.verify Guardians.get at hcall
      cases hget : (normalizeName name).bind (Guardians.get? (w.refreshed .server io).byName) with
      | none =>
          rw [hget] at hcall
          cases hcall
      | some g' =>
          rw [hget] at hcall
          simp only at hcall
          obtain ⟨norm, hnorm, hrow⟩ := Option.bind_eq_some_iff.1 hget
          by_cases hpass : Passwords.verifyPassword g'.passwordHash password = true
          · rw [if_pos hpass] at hcall
            obtain rfl := Except.ok.inj hcall
            rw [hnorm, (Guardians.mem_of_get?_eq_some hrow).2]
            exact ⟨rfl, hpass⟩
          · rw [if_neg hpass] at hcall
            cases hcall

/-! ## The rows of the others -/

/-- What a call on the store writes, it writes under the name of its row. -/
lemma mem_table_call (hw : w.Kept) (hread : w.Readable p io)
    {row : Guardians.Table → Except Guardians.Err Guardians.Guardian} {g : Guardians.Guardian}
    (hg : g ∈ w.table) (hname : ∀ g', row w.table = .ok g' → g.name ≠ g'.name) :
    g ∈ (w.call p io row).2.table := by
  have hbyName := (hw.refreshed p io).2 hread
  rcases Guardians.World.call_cases w p io row with ⟨e, hcall⟩ | ⟨g', hrow, hcall⟩
  · rw [hcall]
    exact hg
  · rw [hbyName] at hrow
    rw [hcall, Guardians.World.table_commit, Guardians.World.setStore_self, hbyName]
    cases io.write.written with
    | false => exact hg
    | true =>
        rw [if_pos rfl]
        exact hw.sound.ascending.mem_put_iff.2 (.inr ⟨hg, hname g' hrow⟩)

/-- A new account leaves every other as it is. -/
lemma mem_table_add (hw : w.Kept) (hread : w.Readable p io) {g : Guardians.Guardian}
    (hg : g ∈ w.table) : g ∈ (w.add p io name password hash).2.table := by
  unfold Guardians.World.add
  cases Guardians.checked .invalidName name password with
  | error e => exact hg
  | ok norm =>
      refine mem_table_call hw hread hg fun g' hrow hsame => ?_
      obtain ⟨rfl, hnone⟩ := Guardians.addedRow_eq_ok hrow
      rw [hw.sound.get?_eq_some.2 ⟨hg, hsame⟩] at hnone
      cases hnone

omit [Runes] in
lemma table_note (r : Except Guardians.Err Guardians.Guardian × Guardians.World) :
    (Guardians.World.note r).2.table = r.2.table := by
  unfold Guardians.World.note
  cases r.1 with
  | error e => rfl
  | ok g => rfl

/-- A change of password leaves every other account as it is. -/
lemma mem_table_setPassword (hw : w.Kept) (hread : w.Readable p io) {g : Guardians.Guardian}
    (hg : g ∈ w.table) (hname : normalizeName name ≠ some g.name) :
    g ∈ (w.setPassword p io name password hash).2.table := by
  unfold Guardians.World.setPassword
  cases hchecked : Guardians.checked .noSuchGuardian name password with
  | error e => exact hg
  | ok norm =>
      rw [table_note]
      refine mem_table_call hw hread hg fun g' hrow hsame => hname ?_
      obtain ⟨old, hget, rfl⟩ := Guardians.changedRow_eq_ok hrow
      rw [Guardians.checked_eq_ok hchecked, hsame]
      exact congrArg some (hw.sound.get?_eq_some.1 hget).2.symm

end Carries

end Chaskiwasi.Site
