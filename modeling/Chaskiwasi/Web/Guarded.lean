import Chaskiwasi.Web.Carried

/-!
# Whose doing a write is

A step of the site that changes contacts, accounts or what is handed to filing is the call of one
pending request.  That request was a POST from the site's own pages, with the cookie of a session
that the site had minted for a guardian, that had not expired and whose password had not been
changed, and with a token from a page that the site rendered for this guardian at this epoch; and
what is changed is changed in the guardian's name.  A password is changed by nobody but its owner,
who has given the one before it.

An invariant carries this from the step that lets a request in to those that serve it
(`Kept`); the accounts keep theirs, from the runs of the sessions.
-/

namespace Chaskiwasi.Site

open Pututu (Bytes)
open Guardians (Hmac Io Session Held NameRunes isNameChar text? utf8)

/-! ## What is promised -/

/-- The site had minted a session for the guardian, and a page with the form's token for that
session's guardian and epoch; the session was good when the request came in. -/
def Vouched (s : State) (p : Pending) (name : String) : Prop :=
  ∃ m ∈ s.accounts.minted, m.held.guardian.name = name ∧
    (p.req.cookie.bind fun value => (Guardians.decodeCookie value).map Prod.fst) =
      some m.payload ∧
    p.time < m.expiry ∧ Guardians.World.Unchanged name m.held.left p.changed ∧
    ∃ pg ∈ s.pages, pg.guardian = utf8 name ∧ pg.epoch = m.held.guardian.sessionEpoch ∧
      ((cut (p.req.postFormValue csrfField).toList).map fun t => nonceBytes t.1) = some pg.nonce

/-- A write by a guardian, from the site's own pages. -/
structure Authorised [Urls] (s : State) (p : Pending) (name : String) : Prop where
  post : p.req.method = .post
  origin : checkOrigin p.req = true
  vouched : Vouched s p name

/-- Contacts, accounts and the jobs for filing are as they were. -/
structure Same (s s' : State) : Prop where
  contacts : s'.contacts = s.contacts
  jobs : s'.jobs = s.jobs
  announced : s'.announced = s.announced
  table : s'.accounts.table = s.accounts.table

/-- One change, in a guardian's name: of the contacts, a release, or an account.  The accounts of
the others stay as they are. -/
inductive Wrote [Runes] (maxContacts : ℕ) (name : String) (s s' : State) : Prop
  | contact (m : Mutation) (io : MutateIO)
      (hcontacts : s'.contacts = (Chaskiwasi.mutate maxContacts io name m s.contacts).2)
      (hannounced : s'.announced = s.announced ∨
        ∃ ev, (Chaskiwasi.mutate maxContacts io name m s.contacts).1 = .ok ev ∧
          s'.announced = ev :: s.announced)
      (hjobs : s'.jobs = s.jobs) (htable : s'.accounts.table = s.accounts.table)
  | release (rel : Release) (uid : UID)
      (hactor : ∀ actor other, rel = .stranger actor other ∨ rel = .deactivated actor other →
        actor = name)
      (hjobs : s'.jobs = .release rel uid :: s.jobs) (hcontacts : s'.contacts = s.contacts)
      (hannounced : s'.announced = s.announced) (htable : s'.accounts.table = s.accounts.table)
  | account (hrows : ∀ g ∈ s.accounts.table, g.name ≠ name → g ∈ s'.accounts.table)
      (hcontacts : s'.contacts = s.contacts) (hannounced : s'.announced = s.announced)
      (hjobs : s'.jobs = s.jobs)

section Promise

variable [Runes] [Passwords] [Hmac] [Urls] [Addresses] {P : Pipeline} (R : Review.Reader P)
  (maxContacts : ℕ) (s : State)

/-- No MAC was made but by the key's owner. -/
def Unforged : Act → Prop
  | .arrive r env => ∀ value ∈ r.cookie,
      (∀ payload ∈ Guardians.openCookie s.accounts.cookieKey value,
        Guardians.sessionText payload ∈ s.accounts.signed) ∧
      ∀ sess ∈ (s.accounts.readSession env.io value env.now).1.toOption,
        ∀ nonce ∈ openCSRF s.accounts.cookieKey (r.postFormValue csrfField).toList sess,
          Guardians.csrfText sess.guardian sess.epoch (nonceBytes nonce) ∈ s.accounts.signed
  | _ => True

instance : ∀ act, Decidable (Unforged s act)
  | .arrive .. => inferInstanceAs (Decidable (∀ _ ∈ _, (∀ _ ∈ _, _) ∧ ∀ _ ∈ _, ∀ _ ∈ _, _))
  | .serve .. | .restart _ | .useradd _ => inferInstanceAs (Decidable True)

/-- A store that finds the file of the accounts changed can read it. -/
def Legible : Act → Prop
  | .arrive _ env | .serve _ env => s.accounts.Readable .server env.io
  | .restart _ => True
  | .useradd e => s.accounts.Legible e

instance : ∀ act, Decidable (Legible s act)
  | .arrive _ env | .serve _ env => inferInstanceAs (Decidable (s.accounts.Readable .server env.io))
  | .restart _ => inferInstanceAs (Decidable True)
  | .useradd e => inferInstanceAs (Decidable (s.accounts.Legible e))

/-- What a step changes, it changes for a pending request that is authorised, in its guardian's
name; or it is a step of `wasi useradd`, on the accounts alone. -/
def Guarded (act : Act) : Prop :=
  ∀ s', step R maxContacts s act = some s' →
    Same s s' ∨
      (∃ i env p name, act = .serve i env ∧ s.pending[i]? = some p ∧ Authorised s p name ∧
        Wrote maxContacts name s s') ∨
      ∃ e, act = .useradd e ∧ s'.contacts = s.contacts ∧ s'.jobs = s.jobs ∧
        s'.announced = s.announced

/-- The request is an account's own change of password: its guardian's, with a password that was
verified against a row of the account. -/
def OwnChange (p : Pending) (g : Guardians.Guardian) : Prop :=
  ∃ sess h, p.stage = .change sess h ∧ Authorised s p g.name ∧ h ∈ s.accounts.held ∧
    h.guardian.name = g.name ∧
    Passwords.verifyPassword h.guardian.passwordHash
      (p.req.postFormValue "current_password") = true

/-- No step of the site takes an account away or changes it, but its own guardian's change of
password. -/
def Owned (act : Act) : Prop :=
  ∀ s', step R maxContacts s act = some s' → (∀ e, act ≠ .useradd e) →
    ∀ g ∈ s.accounts.table, g ∈ s'.accounts.table ∨
      ∃ i env p, act = .serve i env ∧ s.pending[i]? = some p ∧ OwnChange s p g

end Promise

/-! ## What every step keeps -/

section Kept

variable [Urls] [Passwords]

/-- What is true of a request that was let in. -/
def Sound (s : State) (p : Pending) : Prop :=
  match p.stage with
  | .handle sess =>
      serveMux p.req = .ok p.route ∧
        (∃ m ∈ s.accounts.minted, m.held.guardian.name = sessionName sess) ∧
        sess.guardian = utf8 (sessionName sess) ∧
        (p.req.method.safe = false → Authorised s p (sessionName sess))
  | .change sess h =>
      Authorised s p (sessionName sess) ∧ h ∈ s.accounts.held ∧
        h.guardian.name = sessionName sess ∧
        Passwords.verifyPassword h.guardian.passwordHash
          (p.req.postFormValue "current_password") = true
  | .signIn h => h ∈ s.accounts.held
  | .failing .. | .answered _ => True

structure Kept [Runes] (s : State) : Prop where
  accounts : s.accounts.Kept
  signed : ∀ text ∈ s.accounts.signed,
    (∃ m ∈ s.accounts.minted, text = Guardians.sessionText m.payload) ∨
      ∃ pg ∈ s.pages, text = pg.text
  zeroFree : ∀ pg ∈ s.pages, 0 ∉ pg.guardian
  pending : ∀ p ∈ s.pending, Sound s p

variable {s s' : State} {p : Pending} {name : String} {w : Guardians.World}

omit [Passwords] in
lemma Authorised.mono (h : Authorised s p name)
    (hminted : ∀ m ∈ s.accounts.minted, m ∈ s'.accounts.minted)
    (hpages : ∀ pg ∈ s.pages, pg ∈ s'.pages) {stage : Stage} :
    Authorised s' { p with stage := stage } name := by
  refine ⟨h.post, h.origin, ?_⟩
  obtain ⟨m, hm, hname, hcookie, htime, hunchanged, pg, hpg, hform⟩ := h.vouched
  exact ⟨m, hminted m hm, hname, hcookie, htime, hunchanged, pg, hpages pg hpg, hform⟩

lemma Sound.mono (h : Sound s p) (hminted : ∀ m ∈ s.accounts.minted, m ∈ s'.accounts.minted)
    (hheld : ∀ a ∈ s.accounts.held, a ∈ s'.accounts.held)
    (hpages : ∀ pg ∈ s.pages, pg ∈ s'.pages) : Sound s' p := by
  unfold Sound at h ⊢
  split at h
  · obtain ⟨hmux, ⟨m, hm, hname⟩, hguardian, hauth⟩ := h
    exact ⟨hmux, ⟨m, hminted m hm, hname⟩, hguardian,
      fun hsafe => (hauth hsafe).mono hminted hpages⟩
  · obtain ⟨hauth, hmem, hrest⟩ := h
    exact ⟨hauth.mono hminted hpages, hheld _ hmem, hrest⟩
  · exact hheld _ h
  · trivial
  · trivial

variable [Runes]

/-- The accounts may go on, as long as nothing is minted or signed. -/
lemma Kept.goOn (hs : Kept s) (hw : w.Kept) (hc : Carries s.accounts w) :
    Kept { s with accounts := w } where
  accounts := hw
  signed := by
    show ∀ text ∈ w.signed, _
    rw [hc.signed]
    intro text htext
    refine (hs.signed text htext).imp_left ?_
    rintro ⟨m, hm, hpayload⟩
    refine ⟨m, ?_, hpayload⟩
    show m ∈ w.minted
    rw [hc.minted]
    exact hm
  zeroFree := hs.zeroFree
  pending := by
    intro p hp
    refine (hs.pending p hp).mono (fun m hm => ?_) hc.held (fun _ hpg => hpg)
    show m ∈ w.minted
    rw [hc.minted]
    exact hm

/-- A session may be minted for a row that was given out. -/
lemma Kept.mint (hs : Kept s) {h : Held} (hh : h ∈ s.accounts.held) (now : ℤ) :
    Kept { s with accounts := s.accounts.mintSession h now } where
  accounts := hs.accounts.mintSession hh now
  signed := by
    intro text htext
    rcases List.mem_cons.1 htext with rfl | htext
    · exact .inl ⟨_, List.mem_cons_self .., rfl⟩
    · refine (hs.signed text htext).imp_left ?_
      rintro ⟨m, hm, hpayload⟩
      exact ⟨m, List.mem_cons_of_mem _ hm, hpayload⟩
  zeroFree := hs.zeroFree
  pending := fun p hp =>
    (hs.pending p hp).mono (fun _ hm => List.mem_cons_of_mem _ hm) (fun _ h => h) (fun _ h => h)

/-- A page may be signed for a guardian whose name has no zero byte. -/
lemma Kept.sign [NameRunes] [Hmac] (hs : Kept s) {pg : Page} (hzero : 0 ∉ pg.guardian) :
    Kept { s with
      accounts := { s.accounts with signed := pg.text :: s.accounts.signed }
      pages := pg :: s.pages } where
  accounts := (hs.accounts.step (e := .csrf pg.guardian pg.epoch pg.nonce) trivial rfl).1
  signed := by
    intro text htext
    rcases List.mem_cons.1 htext with rfl | htext
    · exact .inr ⟨pg, List.mem_cons_self .., rfl⟩
    · refine (hs.signed text htext).imp_right ?_
      rintro ⟨pg', hpg', heq⟩
      exact ⟨pg', List.mem_cons_of_mem _ hpg', heq⟩
  zeroFree := by
    intro pg' hpg'
    rcases List.mem_cons.1 hpg' with rfl | hpg'
    · exact hzero
    · exact hs.zeroFree pg' hpg'
  pending := fun p hp =>
    (hs.pending p hp).mono (fun _ h => h) (fun _ h => h) (fun _ h => List.mem_cons_of_mem _ h)

/-- The name of a minted session is one that accounts are kept under. -/
lemma Kept.named (hs : Kept s) {m : Guardians.Minted} (hm : m ∈ s.accounts.minted) :
    normalizeName m.held.guardian.name = some m.held.guardian.name := by
  obtain ⟨row, hrow, hname, -⟩ := hs.accounts.dated m.held (hs.accounts.minted m hm)
  rw [← hname]
  exact hs.accounts.sound.named row hrow

lemma Kept.enter (hs : Kept s) (hp : Sound s p) :
    Kept { s with pending := s.pending ++ [p] } where
  accounts := hs.accounts
  signed := hs.signed
  zeroFree := hs.zeroFree
  pending := by
    intro p' hp'
    have hmono : ∀ q, Sound s q → Sound { s with pending := s.pending ++ [p] } q :=
      fun q hq => hq.mono (fun _ h => h) (fun _ h => h) (fun _ h => h)
    rcases List.mem_append.1 hp' with hp' | hp'
    · exact hmono p' (hs.pending p' hp')
    · obtain rfl := List.mem_singleton.1 hp'
      exact hmono p' hp

lemma Kept.set (hs : Kept s) (i : ℕ) (hp : Sound s p) :
    Kept { s with pending := s.pending.set i p } where
  accounts := hs.accounts
  signed := hs.signed
  zeroFree := hs.zeroFree
  pending := by
    intro p' hp'
    have hmono : ∀ q, Sound s q → Sound { s with pending := s.pending.set i p } q :=
      fun q hq => hq.mono (fun _ h => h) (fun _ h => h) (fun _ h => h)
    rcases List.mem_or_eq_of_mem_set hp' with hp' | rfl
    · exact hmono p' (hs.pending p' hp')
    · exact hmono p' hp

end Kept

/-! ## Letting a request in -/

section Arrive

variable [Urls] [Passwords] [Runes] [Hmac] {s : State} {r : Request} {env : Env} {rt : Route}
  {sess : Session}

omit [Urls] [Passwords] [Runes] [Hmac] in
/-- A route all of whose patterns are for POST is reached by no other method. -/
lemma post_of_serveMux (h : serveMux r = .ok rt)
    (hpost : ∀ p ∈ patterns, p.route = rt → p.method = .post) : r.method = .post := by
  unfold serveMux at h
  cases hfind : patterns.find? fun p => p.onPath r.path && p.takes r.method with
  | none =>
      rw [hfind] at h
      cases h
  | some p =>
      rw [hfind] at h
      have hmethod := hpost p (List.mem_of_find?_eq_some hfind) (Except.ok.inj h)
      have htakes : (p.onPath r.path && p.takes r.method) = true :=
        List.find?_some (p := fun p : Pattern => p.onPath r.path && p.takes r.method) hfind
      have hmatches := (Bool.and_eq_true_iff.1 htakes).2
      unfold Pattern.takes at hmatches
      rw [hmethod] at hmatches
      simpa using hmatches

omit [Urls] [Passwords] [Runes] [Hmac] in
/-- What is routed is a POST, or writes nothing. -/
lemma post_or_safe_of_serveMux (h : serveMux r = .ok rt) :
    r.method = .post ∨ r.method.safe = true := by
  cases hmethod : r.method with
  | get => exact .inr rfl
  | head => exact .inr rfl
  | post => exact .inl rfl
  | other =>
      have hnone : ∀ p ∈ patterns, ¬ (p.onPath r.path && p.takes r.method) = true := by
        rw [hmethod]
        intro p hp
        have htakes : p.takes .other = false := by
          revert p
          decide
        rw [htakes, Bool.and_false]
        exact Bool.false_ne_true
      unfold serveMux at h
      rw [List.find?_eq_none.2 hnone] at h
      cases h

/-- A token that opens is one that was put into a page for the session's guardian and epoch. -/
lemma Kept.page (hs : Kept s) {name : String} (hname : name.toList.all isNameChar = true)
    (hguardian : sess.guardian = utf8 name) (hcsrf : checkCSRF s.accounts.cookieKey r sess = true)
    (hunforged : ∀ nonce ∈ openCSRF s.accounts.cookieKey (r.postFormValue csrfField).toList sess,
      Guardians.csrfText sess.guardian sess.epoch (nonceBytes nonce) ∈ s.accounts.signed) :
    ∃ pg ∈ s.pages, pg.guardian = utf8 name ∧ pg.epoch = sess.epoch ∧
      ((cut (r.postFormValue csrfField).toList).map fun t => nonceBytes t.1) = some pg.nonce := by
  obtain ⟨nonce, hopen⟩ := Option.isSome_iff_exists.1 hcsrf
  have hcut : (cut (r.postFormValue csrfField).toList).map Prod.fst = some nonce := by
    unfold openCSRF at hopen
    cases hcut : cut (r.postFormValue csrfField).toList with
    | none =>
        rw [hcut] at hopen
        cases hopen
    | some parts =>
        rw [hcut] at hopen
        obtain ⟨-, hnonce⟩ := Option.ite_none_right_eq_some.1 hopen
        exact hnonce
  rcases hs.signed _ (hunforged nonce hopen) with ⟨m, -, heq⟩ | ⟨pg, hpg, heq⟩
  · exact (Guardians.csrfText_ne_sessionText _ _ _ _ heq).elim
  · rw [hguardian] at heq
    obtain ⟨hpage, hepoch, hnonce⟩ := csrfText_injective (Guardians.zero_not_mem_utf8 hname)
      (hs.zeroFree pg hpg) heq
    refine ⟨pg, hpg, hpage.symm, hepoch.symm, ?_⟩
    rw [← hnonce]
    have hbytes := congrArg (Option.map nonceBytes) hcut
    rw [Option.map_map] at hbytes
    exact hbytes

/-- What a cookie that is accepted says is what was minted. -/
lemma Kept.session (hs : Kept s) {value : List Char} (hcookie : r.cookie = some value)
    (hlegible : s.accounts.Readable .server env.io)
    (hunforged : ∀ payload ∈ Guardians.openCookie s.accounts.cookieKey value,
      Guardians.sessionText payload ∈ s.accounts.signed)
    (hok : (s.accounts.readSession env.io value env.now).1 = .ok sess) :
    ∃ m ∈ s.accounts.minted,
      (r.cookie.bind fun value => (Guardians.decodeCookie value).map Prod.fst) = some m.payload ∧
        sess.guardian = utf8 m.held.guardian.name ∧ sess.epoch = m.held.guardian.sessionEpoch ∧
        env.now < m.expiry ∧
        Guardians.World.Unchanged m.held.guardian.name m.held.left s.accounts.changed := by
  have hbacked : s.accounts.BackedBy Held.left value env.now
      (s.accounts.readSession env.io value env.now).1 :=
    hs.accounts.backed (e := .read value env.now env.io) hunforged hlegible
  rw [hok] at hbacked
  obtain ⟨m, hm, hdecode, hguardian, hnow, hunchanged⟩ := hbacked
  obtain ⟨payload, -, -, hopen, hread, -⟩ := Guardians.World.readSession_eq_ok hok
  have hpayload : payload = m.payload := by
    unfold Guardians.openCookie at hopen
    cases hparts : Guardians.decodeCookie value with
    | none =>
        rw [hparts] at hdecode
        cases hdecode
    | some parts =>
        rw [hparts] at hdecode hopen
        obtain ⟨-, hfst⟩ := Option.ite_none_right_eq_some.1 hopen
        exact Option.some.inj (hfst.symm.trans hdecode)
  rw [hpayload] at hread
  have hsess := Guardians.readPayload_sessionPayload
    (Guardians.all_of_normalizeName (hs.named hm)) hread
  refine ⟨m, hm, ?_, hguardian, ?_, hnow, hunchanged⟩
  · rw [hcookie]
    exact hdecode
  · rw [hsess]

omit [Passwords] in
/-- Whoever is let in has a cookie that is accepted, and for a write what a form of the site has. -/
lemma requireSession_eq_ok (h : (requireSession s r env).2 = .ok sess) :
    ∃ value, r.cookie = some value ∧
      (s.accounts.readSession env.io value env.now).1 = .ok sess ∧
      (r.method.safe = false →
        checkOrigin r = true ∧ checkCSRF s.accounts.cookieKey r sess = true) := by
  unfold requireSession at h
  cases hcookie : r.cookie with
  | none =>
      rw [hcookie] at h
      cases h
  | some value =>
      rw [hcookie] at h
      simp only at h
      cases hread : (s.accounts.readSession env.io value env.now).1 with
      | error e =>
          rw [hread] at h
          cases h
      | ok sess' =>
          rw [hread] at h
          simp only at h
          split_ifs at h with hsafe horigin htoken
          · obtain rfl := Except.ok.inj h
            refine ⟨value, rfl, hread, fun hwrite => ?_⟩
            exact absurd (hwrite.symm.trans hsafe) Bool.false_ne_true
          · obtain rfl := Except.ok.inj h
            refine ⟨value, rfl, hread, fun _ => ⟨?_, ?_⟩⟩
            · exact eq_true_of_ne_false horigin
            · exact eq_true_of_ne_false htoken

omit [Passwords] in
/-- Letting in changes no more than the server's table of the accounts. -/
lemma requireSession_fst (s : State) (r : Request) (env : Env) :
    (requireSession s r env).1 = s ∨ ∃ value, (requireSession s r env).1 =
      { s with accounts := (s.accounts.readSession env.io value env.now).2 } := by
  unfold requireSession
  cases r.cookie with
  | none => exact .inl rfl
  | some value =>
      refine .inr ⟨value, ?_⟩
      simp only
      cases (s.accounts.readSession env.io value env.now).1 with
      | error e => rfl
      | ok sess =>
          simp only
          split_ifs
          · rfl
          · rfl
          · rfl
          · rfl

/-- A request that is let in is sound. -/
lemma Kept.letIn (hs : Kept s) (hunforged : Unforged s (.arrive r env))
    (hlegible : s.accounts.Readable .server env.io) (hmux : serveMux r = .ok rt)
    (hok : (requireSession s r env).2 = .ok sess) :
    Sound s ⟨r, rt, env.now, s.accounts.changed, .handle sess⟩ := by
  obtain ⟨value, hcookie, hread, hform⟩ := requireSession_eq_ok hok
  obtain ⟨hopens, htokens⟩ := hunforged value hcookie
  obtain ⟨m, hm, hpayload, hguardian, hepoch, hnow, hunchanged⟩ :=
    hs.session hcookie hlegible hopens hread
  have hname : m.held.guardian.name = sessionName sess := by
    unfold sessionName
    rw [hguardian, Guardians.text?_utf8]
    rfl
  have hchars := Guardians.all_of_normalizeName (hs.named hm)
  rw [hname] at hguardian hunchanged hchars
  refine ⟨hmux, ⟨m, hm, hname⟩, hguardian, fun hwrite => ?_⟩
  obtain ⟨horigin, hcsrf⟩ := hform hwrite
  have htoken : ∀ nonce ∈ openCSRF s.accounts.cookieKey (r.postFormValue csrfField).toList sess,
      Guardians.csrfText sess.guardian sess.epoch (nonceBytes nonce) ∈ s.accounts.signed := by
    apply htokens sess
    rw [hread]
    rfl
  obtain ⟨pg, hpg, hpage, hpepoch, hnonce⟩ := hs.page hchars hguardian hcsrf htoken
  have hpost : r.method = .post := by
    have hmethod := post_or_safe_of_serveMux hmux
    rw [hwrite] at hmethod
    exact hmethod.resolve_right Bool.false_ne_true
  exact ⟨hpost, horigin, m, hm, hname, hpayload, hnow, hunchanged, pg, hpg, hpage,
    hpepoch.trans hepoch, hnonce⟩

end Arrive

end Chaskiwasi.Site
