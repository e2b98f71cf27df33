import Chaskiwasi.Web.Guarded

/-!
# Requests that are served

One lemma for each handler says what its call changes, for whom, and that it keeps what every step
keeps (`Served`).  From these, and from what a request does as it comes in (`Arrived`), every step of
a run is guarded.
-/

namespace Chaskiwasi.Site

open Pututu (Bytes)
open Guardians (Hmac Session Held NameRunes utf8)

/-! ## The handlers -/

section Serve

variable [Urls] [Passwords] [Runes] {maxContacts : ℕ} {s s' : State} {env : Env} {p : Pending}
  {sess : Session} {stage : Stage} {name : String}

/-- What the call of a request does. -/
structure Served (maxContacts : ℕ) (s : State) (p : Pending) (s' : State) (stage : Stage) :
    Prop where
  pending : s'.pending = s.pending
  kept : Kept s'
  sound : Sound s' { p with stage := stage }
  wrote : Same s s' ∨ ∃ name, Authorised s p name ∧ Wrote maxContacts name s s'
  owned : ∀ g ∈ s.accounts.table, g ∈ s'.accounts.table ∨ OwnChange s p g

lemma Served.answer (hs : Kept s) (resp : Response) :
    Served maxContacts s p s (.answered resp) where
  pending := rfl
  kept := hs
  sound := trivial
  wrote := .inl ⟨rfl, rfl, rfl, rfl⟩
  owned := fun _ hg => .inl hg

/-- The contacts and the jobs are nothing that is kept. -/
lemma Kept.congr (hs : Kept s) (haccounts : s'.accounts = s.accounts) (hpages : s'.pages = s.pages)
    (hpending : s'.pending = s.pending) : Kept s' where
  accounts := by
    rw [haccounts]
    exact hs.accounts
  signed := by
    rw [haccounts, hpages]
    exact hs.signed
  zeroFree := by
    rw [hpages]
    exact hs.zeroFree
  pending := by
    intro p hp
    rw [hpending] at hp
    apply (hs.pending p hp).mono
    · rw [haccounts]
      exact fun _ hm => hm
    · rw [haccounts]
      exact fun _ hh => hh
    · rw [hpages]
      exact fun _ hpg => hpg

/-- A change of the contacts is made in the name of the request's guardian. -/
lemma Kept.mutate (hs : Kept s) (hauth : Authorised s p name) (back : String) (m : Mutation)
    (ok : FlashCode) :
    Served maxContacts s p (mutate maxContacts s env back m name ok).1
      (.answered (mutate maxContacts s env back m name ok).2) := by
  unfold Site.mutate
  cases hmutate : Chaskiwasi.mutate maxContacts env.mutateIO name m s.contacts with
  | mk outcome t =>
      cases outcome with
      | error e =>
          have hwrote : Wrote maxContacts name s { s with contacts := t } :=
            .contact m env.mutateIO (by rw [hmutate]) (.inl rfl) rfl rfl
          exact ⟨rfl, hs.congr rfl rfl rfl, trivial, .inr ⟨name, hauth, hwrote⟩,
            fun _ hg => .inl hg⟩
      | ok ev =>
          have hwrote : Wrote maxContacts name s
              { s with contacts := t, announced := ev :: s.announced } :=
            .contact m env.mutateIO (by rw [hmutate]) (.inr ⟨ev, by rw [hmutate], rfl⟩) rfl rfl
          exact ⟨rfl, hs.congr rfl rfl rfl, trivial, .inr ⟨name, hauth, hwrote⟩,
            fun _ hg => .inl hg⟩

variable {P : Pipeline} {R : Review.Reader P} {r : Request}

omit [Urls] [Passwords] in
/-- A job that comes of a posted release has the actor who posted it. -/
lemma actor_of_handleHeldRelease {t : Table} {held : Folder} {uid : UID} {actor field : String}
    {job : Job} (h : Review.handleHeldRelease R t held uid actor field = .ok job) :
    ∃ rel, job = .release rel uid ∧
      ∀ a other, rel = .stranger a other ∨ rel = .deactivated a other → a = actor := by
  unfold Review.handleHeldRelease at h
  cases hfind : Review.findHeld R t held uid with
  | error e =>
      rw [hfind] at h
      cases h
  | ok view =>
      rw [hfind] at h
      change (Review.releaseFor view actor _).bind _ = _ at h
      cases hrel : Review.releaseFor view actor (String.ofList (trimSpace field.toList)) with
      | error e =>
          rw [hrel] at h
          cases h
      | ok rel =>
          rw [hrel] at h
          refine ⟨rel, (Except.ok.inj h).symm, fun a other ha => ?_⟩
          unfold Review.releaseFor at hrel
          split at hrel
          · split_ifs at hrel
            obtain rfl := Except.ok.inj hrel
            rcases ha with ha | ha
            · exact (Release.stranger.inj ha).1.symm
            · cases ha
          · obtain rfl := Except.ok.inj hrel
            rcases ha with ha | ha
            · cases ha
            · exact (Release.deactivated.inj ha).1.symm
          · obtain rfl := Except.ok.inj hrel
            rcases ha with ha | ha
            · cases ha
            · cases ha
          · cases hrel

/-- So is a release. -/
lemma Kept.release (hs : Kept s) (hauth : Authorised s p (sessionName sess)) :
    Served maxContacts s p (handleHeldRelease s env r sess R).1
      (.answered (handleHeldRelease s env r sess R).2) := by
  unfold handleHeldRelease
  split
  case h_2 => exact Served.answer hs _
  case h_1 uid held huid hheld =>
    cases hrelease : Review.handleHeldRelease R s.contacts held uid (sessionName sess)
        (r.postFormValue "name") with
    | error e => exact Served.answer hs _
    | ok job =>
        obtain ⟨rel, rfl, hactor⟩ := actor_of_handleHeldRelease hrelease
        have hwrote : Wrote maxContacts (sessionName sess) s
            { s with jobs := .release rel uid :: s.jobs } :=
          .release rel uid hactor rfl rfl rfl rfl
        exact ⟨rfl, hs.congr rfl rfl rfl, trivial, .inr ⟨_, hauth, hwrote⟩, fun _ hg => .inl hg⟩

/-- What goes on in the accounts alone, and leaves the rows of the others, is done in the guardian's
name. -/
lemma Kept.accounts' {w : Guardians.World} (hs : Kept s) (hauth : Authorised s p name)
    (hkept : w.Kept) (hcarries : Carries s.accounts w) (resp : Response)
    (hrows : ∀ g ∈ s.accounts.table, g.name ≠ name → g ∈ w.table)
    (howned : ∀ g ∈ s.accounts.table, g ∈ w.table ∨ OwnChange s p g) :
    Served maxContacts s p { s with accounts := w } (.answered resp) where
  pending := rfl
  kept := hs.goOn hkept hcarries
  sound := trivial
  wrote := .inr ⟨name, hauth, .account hrows rfl rfl rfl⟩
  owned := howned

variable [NameRunes] [Hmac]

omit [Hmac] in
lemma Kept.guardianAdd (hs : Kept s) (hauth : Authorised s p name)
    (hread : s.accounts.Readable .server env.io) (hfresh : s.accounts.Fresh env.io) :
    Served maxContacts s p (handleGuardianAdd s env r).1
      (.answered (handleGuardianAdd s env r).2) := by
  unfold handleGuardianAdd
  split_ifs with hconfirm
  · exact Served.answer hs _
  · have hkept : (s.accounts.add .server env.io (r.postFormValue "guardian")
        (r.postFormValue "password") env.hash).2.Kept := (hs.accounts.add hread hfresh).1
    have hcarries := carries_add s.accounts .server env.io (r.postFormValue "guardian")
      (r.postFormValue "password") env.hash
    have hrows : ∀ g ∈ s.accounts.table, g ∈ (s.accounts.add .server env.io
        (r.postFormValue "guardian") (r.postFormValue "password") env.hash).2.table :=
      fun g hg => mem_table_add hs.accounts hread hg
    cases hadd : s.accounts.add .server env.io (r.postFormValue "guardian")
        (r.postFormValue "password") env.hash with
    | mk outcome w =>
        rw [hadd] at hkept hcarries hrows
        cases outcome with
        | error e =>
            exact hs.accounts' hauth hkept hcarries _ (fun g hg _ => hrows g hg)
              fun g hg => .inl (hrows g hg)
        | ok g =>
            exact hs.accounts' hauth hkept hcarries _ (fun g hg _ => hrows g hg)
              fun g hg => .inl (hrows g hg)

/-- Verifying a password writes nothing. -/
lemma Kept.verified (hs : Kept s) (hread : s.accounts.Readable .server env.io)
    (name password : String) :
    (verify s.accounts env.io name password).2.Kept ∧
      Carries s.accounts (verify s.accounts env.io name password).2 ∧
      (verify s.accounts env.io name password).2.table = s.accounts.table := by
  refine ⟨?_, carries_verify .., table_verify ..⟩
  rw [verify_snd]
  exact (hs.accounts.step (e := .verify name password env.io) hread rfl).1

/-- The first call of a change of password writes nothing. -/
lemma Kept.passwordChange (hs : Kept s) (hauth : Authorised s p (sessionName sess))
    (hread : s.accounts.Readable .server env.io) :
    Served maxContacts s p (handlePasswordChange s env p.req sess).1
      (handlePasswordChange s env p.req sess).2 := by
  unfold handlePasswordChange
  split_ifs with hconfirm
  · exact Served.answer hs _
  · obtain ⟨hkept, hcarries, htable⟩ := hs.verified hread (sessionName sess)
      (p.req.postFormValue "current_password")
    cases hverify : verify s.accounts env.io (sessionName sess)
        (p.req.postFormValue "current_password") with
    | mk found w =>
        rw [hverify] at hkept hcarries htable
        have hsame : Same s { s with accounts := w } := ⟨rfl, rfl, rfl, htable⟩
        have hrows : ∀ g ∈ s.accounts.table, g ∈ w.table ∨ OwnChange s p g :=
          fun g hg => .inl (htable.symm ▸ hg)
        cases found with
        | none => exact ⟨rfl, hs.goOn hkept hcarries, trivial, .inl hsame, hrows⟩
        | some h =>
            obtain ⟨hheld, hnorm, hpass⟩ := verify_eq_some (congrArg Prod.fst hverify)
            rw [hverify] at hheld
            obtain ⟨m, hm, hname, -⟩ := hauth.vouched
            rw [← hname, hs.named hm] at hnorm
            refine ⟨rfl, hs.goOn hkept hcarries, ⟨?_, hheld, ?_, hpass⟩, .inl hsame, hrows⟩
            · apply hauth.mono
              · exact fun m hm => hcarries.minted.symm ▸ hm
              · exact fun _ hpg => hpg
            · exact (Option.some.inj hnorm).symm.trans hname

omit [NameRunes] in
/-- The second one writes the row of the request's guardian, who has given the password before. -/
lemma Kept.setPassword {h : Held} (hs : Kept s) (hstage : p.stage = .change sess h)
    (hauth : Authorised s p (sessionName sess)) (hheld : h ∈ s.accounts.held)
    (hname : h.guardian.name = sessionName sess)
    (hpass : Passwords.verifyPassword h.guardian.passwordHash
      (p.req.postFormValue "current_password") = true)
    (hread : s.accounts.Readable .server env.io) (hfresh : s.accounts.Fresh env.io) :
    Served maxContacts s p (setPassword s env p.req sess h).1
      (.answered (setPassword s env p.req sess h).2) := by
  obtain ⟨hkept, -, hraises⟩ := hs.accounts.setPassword hread hfresh (sessionName sess)
    (p.req.postFormValue "new_password") env.hash
  have hcarries := carries_setPassword s.accounts .server env.io (sessionName sess)
    (p.req.postFormValue "new_password") env.hash
  have hothers : ∀ g ∈ s.accounts.table, g.name ≠ sessionName sess →
      g ∈ (s.accounts.setPassword .server env.io (sessionName sess)
        (p.req.postFormValue "new_password") env.hash).2.table := by
    intro g hg hne
    apply mem_table_setPassword hs.accounts hread hg
    obtain ⟨m, hm, hsame, -⟩ := hauth.vouched
    rw [← hsame, hs.named hm, hsame]
    exact fun heq => hne (Option.some.inj heq).symm
  unfold Site.setPassword
  cases hset : s.accounts.setPassword .server env.io (sessionName sess)
      (p.req.postFormValue "new_password") env.hash with
  | mk outcome w =>
      rw [hset] at hkept hraises hcarries hothers
      have howned : ∀ g ∈ s.accounts.table, g ∈ w.table ∨ OwnChange s p g := by
        intro g hg
        by_cases hown : g.name = sessionName sess
        · refine .inr ⟨sess, h, hstage, ?_, hheld, hname.trans hown.symm, hpass⟩
          rw [hown]
          exact hauth
        · exact .inl (hothers g hg hown)
      cases outcome with
      | error e => exact hs.accounts' hauth hkept hcarries _ hothers howned
      | ok g =>
          have hgiven : g ∈ w.table := by
            obtain ⟨-, -, -, hget⟩ := hraises g rfl
            exact (Guardians.mem_of_get?_eq_some hget).1
          have hgave : ({ w with held := w.held ++ [⟨g, h.verified, w.changed⟩] } :
              Guardians.World).Kept := by
            apply Guardians.World.Kept.hold (r := (.ok g, w)) hkept h.verified
            rintro g' hg'
            obtain rfl := Except.ok.inj hg'
            exact hgiven
          have hgone : Kept { s with
              accounts := { w with held := w.held ++ [⟨g, h.verified, w.changed⟩] } } := by
            apply hs.goOn hgave
            exact ⟨hcarries.minted, hcarries.signed,
              fun a ha => List.mem_append_left _ (hcarries.held a ha)⟩
          have hminted := hgone.mint (List.mem_append_right _ (List.mem_singleton_self _)) env.now
          exact ⟨rfl, hminted, trivial,
            .inr ⟨_, hauth, .account hothers rfl rfl rfl⟩, howned⟩

omit [NameRunes] [Hmac] in
/-- A sign-in that was verified is minted. -/
lemma Kept.signIn {h : Held} (hs : Kept s) (hheld : h ∈ s.accounts.held) (throttle : Throttle)
    (resp : Response) :
    Served maxContacts s p
      { s with throttle := throttle, accounts := s.accounts.mintSession h env.now }
      (.answered resp) where
  pending := rfl
  kept := (hs.mint hheld env.now).congr rfl rfl rfl
  sound := trivial
  wrote := .inl ⟨rfl, rfl, rfl, rfl⟩
  owned := fun _ hg => .inl hg

/-- A page is signed for the guardian of the session. -/
lemma Kept.render (hs : Kept s) (hm : ∃ m ∈ s.accounts.minted,
      m.held.guardian.name = sessionName sess) (hguardian : sess.guardian = utf8 (sessionName sess))
    (rt : Route) :
    Served maxContacts s p (render s env sess rt).1 (.answered (render s env sess rt).2) := by
  unfold Site.render
  split_ifs with hforms
  · have hzero : 0 ∉ sess.guardian := by
      obtain ⟨m, hm, hname⟩ := hm
      rw [hguardian, ← hname]
      exact Guardians.zero_not_mem_utf8 (Guardians.all_of_normalizeName (hs.named hm))
    have hpage : 0 ∉ (⟨sess.guardian, sess.epoch,
        nonceBytes (Guardians.encodeBytes env.nonce)⟩ : Page).guardian := hzero
    exact ⟨rfl, hs.sign hpage, trivial,
      .inl ⟨rfl, rfl, rfl, rfl⟩, fun _ hg => .inl hg⟩
  · exact Served.answer hs _

variable [Addresses]

/-- The call of a handler, behind the session. -/
lemma Kept.handle (hs : Kept s) (hp : Sound s p) (hstage : p.stage = .handle sess)
    (hread : s.accounts.Readable .server env.io) (hfresh : s.accounts.Fresh env.io) :
    Served maxContacts s p (handle R maxContacts s p.route p.req sess env).1
      (handle R maxContacts s p.route p.req sess env).2 := by
  unfold Sound at hp
  rw [hstage] at hp
  obtain ⟨hmux, hm, hguardian, hauth⟩ := hp
  have hwrite : ∀ rt, p.route = rt →
      (∀ pt ∈ patterns, pt.route = rt → pt.method = .post) → Authorised s p (sessionName sess) := by
    intro rt hroute hpost
    apply hauth
    rw [post_of_serveMux hmux (hroute ▸ hpost)]
    rfl
  unfold Site.handle
  cases hroute : p.route with
  | logout => exact Served.answer hs _
  | contactAdd =>
      have hname := hwrite _ hroute (by decide)
      unfold handleContactAdd
      cases formAddress p.req with
      | none => exact Served.answer hs _
      | some address =>
          simp only
          split_ifs with hempty
          · exact Served.answer hs _
          · exact hs.mutate hname _ _ _
  | contactDeactivate => exact hs.mutate (hwrite _ hroute (by decide)) _ _ _
  | contactReactivate => exact hs.mutate (hwrite _ hroute (by decide)) _ _ _
  | contactReaddress =>
      have hname := hwrite _ hroute (by decide)
      unfold handleContactReaddress
      cases formAddress p.req with
      | none => exact Served.answer hs _
      | some address => exact hs.mutate hname _ _ _
  | heldRelease => exact hs.release (hwrite _ hroute (by decide))
  | guardianAdd => exact hs.guardianAdd (hwrite _ hroute (by decide)) hread hfresh
  | passwordChange => exact hs.passwordChange (hwrite _ hroute (by decide)) hread
  | static => exact hs.render hm hguardian _
  | loginForm => exact hs.render hm hguardian _
  | login => exact hs.render hm hguardian _
  | dashboard => exact hs.render hm hguardian _
  | deviceStatusFragment => exact hs.render hm hguardian _
  | contacts => exact hs.render hm hguardian _
  | held => exact hs.render hm hguardian _
  | heldFragment => exact hs.render hm hguardian _
  | changeLog => exact hs.render hm hguardian _
  | settings => exact hs.render hm hguardian _
  | account => exact hs.render hm hguardian _

/-- What a pending request does when it is served. -/
lemma Kept.serve {a : State × Stage} (hs : Kept s) (hp : Sound s p)
    (hread : s.accounts.Readable .server env.io) (hfresh : s.accounts.Fresh env.io)
    (hserve : serve R maxContacts s p env = some a) : Served maxContacts s p a.1 a.2 := by
  unfold Site.serve at hserve
  cases hstage : p.stage with
  | handle sess =>
      rw [hstage] at hserve
      obtain rfl := Option.some.inj hserve
      exact hs.handle hp hstage hread hfresh
  | change sess h =>
      unfold Sound at hp
      rw [hstage] at hp hserve
      obtain ⟨hauth, hheld, hname, hpass⟩ := hp
      obtain rfl := Option.some.inj hserve
      dsimp only
      exact hs.setPassword hstage hauth hheld hname hpass hread hfresh
  | signIn h =>
      rw [hstage] at hserve
      obtain rfl := Option.some.inj hserve
      unfold Sound at hp
      rw [hstage] at hp
      exact hs.signIn hp (s.throttle.succeed (p.req.postFormValue "guardian")) _
  | failing name since =>
      rw [hstage] at hserve
      obtain ⟨-, hanswer⟩ := Option.ite_none_left_eq_some.1 hserve
      obtain rfl := Option.some.inj hanswer
      exact ⟨rfl, hs.congr rfl rfl rfl, trivial, .inl ⟨rfl, rfl, rfl, rfl⟩, fun _ hg => .inl hg⟩
  | answered resp =>
      rw [hstage] at hserve
      cases hserve

end Serve

/-! ## Every step -/

section Step

variable [Urls] [Passwords] [Runes] [NameRunes] [Hmac] {s s' : State} {env : Env} {r : Request}

omit [Passwords] [NameRunes] in
lemma requireSession_same (s : State) (r : Request) (env : Env) :
    Same s (requireSession s r env).1 ∧ (requireSession s r env).1.pending = s.pending ∧
      (requireSession s r env).1.pages = s.pages ∧
      Carries s.accounts (requireSession s r env).1.accounts := by
  rcases requireSession_fst s r env with hsame | ⟨value, hread⟩
  · rw [hsame]
    exact ⟨⟨rfl, rfl, rfl, rfl⟩, rfl, rfl, carries_refl _⟩
  · rw [hread]
    exact ⟨⟨rfl, rfl, rfl, table_readSession ..⟩, rfl, rfl, carries_readSession ..⟩

/-- The accounts after a cookie is read. -/
lemma Kept.readSession (hs : Kept s) (hlegible : s.accounts.Readable .server env.io)
    (value : List Char) :
    Kept { s with accounts := (s.accounts.readSession env.io value env.now).2 } :=
  hs.goOn (hs.accounts.step (e := .read value env.now env.io) hlegible rfl).1
    (carries_readSession ..)

/-- What a request does as it comes in: it changes nothing but the server's table of the accounts,
and what is pending of it is sound. -/
structure Arrived (s : State) (r : Request) (env : Env) (a : State × Stage × Route) : Prop where
  pending : a.1.pending = s.pending
  kept : Kept a.1
  same : Same s a.1
  sound : Sound a.1 ⟨r, a.2.2, env.now, s.accounts.changed, a.2.1⟩

lemma Kept.requireSession (hs : Kept s) (hunforged : Unforged s (.arrive r env))
    (hlegible : s.accounts.Readable .server env.io) {rt : Route} (hmux : serveMux r = .ok rt) :
    Arrived s r env (match requireSession s r env with
      | (s', .error resp) => (s', .answered resp, rt)
      | (s', .ok sess) => (s', .handle sess, rt)) := by
  obtain ⟨hsame, hpending, hpages, hcarries⟩ := requireSession_same s r env
  have hkept : Kept (Site.requireSession s r env).1 := by
    rcases requireSession_fst s r env with hfst | ⟨value, hfst⟩
    · rw [hfst]
      exact hs
    · rw [hfst]
      exact hs.readSession hlegible value
  cases hreq : Site.requireSession s r env with
  | mk s' outcome =>
      rw [hreq] at hsame hpending hpages hcarries hkept
      cases outcome with
      | error resp => exact ⟨hpending, hkept, hsame, trivial⟩
      | ok sess =>
          refine ⟨hpending, hkept, hsame, ?_⟩
          apply (hs.letIn hunforged hlegible hmux (congrArg Prod.snd hreq)).mono
          · exact fun m hm => hcarries.minted.symm ▸ hm
          · exact hcarries.held
          · exact fun pg hpg => hpages.symm ▸ hpg

lemma Kept.loginForm (hs : Kept s) (hlegible : s.accounts.Readable .server env.io) :
    Arrived s r env
      ((handleLoginForm s r env).1, .answered (handleLoginForm s r env).2, .loginForm) := by
  unfold handleLoginForm
  cases r.cookie with
  | none => exact ⟨rfl, hs, ⟨rfl, rfl, rfl, rfl⟩, trivial⟩
  | some value =>
      have hkept := hs.readSession hlegible value
      have htable := table_readSession s.accounts env.io value env.now
      simp only
      cases (s.accounts.readSession env.io value env.now).1 with
      | error e => exact ⟨rfl, hkept, ⟨rfl, rfl, rfl, htable⟩, trivial⟩
      | ok sess => exact ⟨rfl, hkept, ⟨rfl, rfl, rfl, htable⟩, trivial⟩

lemma Kept.login (hs : Kept s) (hlegible : s.accounts.Readable .server env.io) :
    Arrived s r env ((handleLogin s r env).1, (handleLogin s r env).2, .login) := by
  unfold handleLogin
  simp only
  split_ifs with horigin hthrottle
  · exact ⟨rfl, hs, ⟨rfl, rfl, rfl, rfl⟩, trivial⟩
  · exact ⟨rfl, hs, ⟨rfl, rfl, rfl, rfl⟩, trivial⟩
  · obtain ⟨hkept, hcarries, htable⟩ := hs.verified hlegible (r.postFormValue "guardian")
      (r.postFormValue "password")
    cases hverify : verify s.accounts env.io (r.postFormValue "guardian")
        (r.postFormValue "password") with
    | mk found w =>
        rw [hverify] at hkept hcarries htable
        cases found with
        | none => exact ⟨rfl, hs.goOn hkept hcarries, ⟨rfl, rfl, rfl, htable⟩, trivial⟩
        | some h =>
            have hheld := (verify_eq_some (congrArg Prod.fst hverify)).1
            rw [hverify] at hheld
            exact ⟨rfl, hs.goOn hkept hcarries, ⟨rfl, rfl, rfl, htable⟩, hheld⟩

lemma Kept.arrive (hs : Kept s) (hunforged : Unforged s (.arrive r env))
    (hlegible : s.accounts.Readable .server env.io) : Arrived s r env (arrive s r env) := by
  have hanswer : ∀ resp rt, Arrived s r env (s, .answered resp, rt) :=
    fun resp rt => ⟨rfl, hs, ⟨rfl, rfl, rfl, rfl⟩, trivial⟩
  unfold Site.arrive
  split
  · exact hanswer _ _
  · exact hanswer _ _
  · exact hs.loginForm hlegible
  · exact hs.login hlegible
  · rename_i rt _ _ _ hmux
    exact hs.requireSession hunforged hlegible hmux

variable [Addresses] {P : Pipeline} {R : Review.Reader P} {maxContacts : ℕ} {act : Act}

/-- A step keeps what is kept, and is guarded. -/
lemma Kept.step (hs : Kept s) (hunforged : Unforged s act) (hlegible : Legible s act)
    (hstep : step R maxContacts s act = some s') : Kept s' := by
  cases act with
  | arrive r env =>
      obtain rfl := Option.some.inj hstep
      have harrived := hs.arrive hunforged hlegible
      exact harrived.kept.enter harrived.sound
  | serve i env =>
      obtain ⟨hfresh, hserve⟩ := Option.ite_none_right_eq_some.1 hstep
      obtain ⟨p, hp, hserve⟩ := Option.bind_eq_some_iff.1 hserve
      obtain ⟨a, ha, rfl⟩ := Option.map_eq_some_iff.1 hserve
      have hserved := hs.serve (hs.pending p (List.mem_of_getElem? hp)) hlegible hfresh ha
      exact hserved.kept.set i hserved.sound
  | restart io =>
      obtain ⟨w, hw, rfl⟩ := Option.map_eq_some_iff.1 hstep
      have hgone := hs.goOn (hs.accounts.step (e := .start .server io) trivial hw).1
        (carries_start hw).1
      exact ⟨hgone.accounts, hgone.signed, hgone.zeroFree, by simp⟩
  | useradd e =>
      obtain ⟨hcli, hevent⟩ := Option.ite_none_right_eq_some.1 hstep
      obtain ⟨w, hw, rfl⟩ := Option.map_eq_some_iff.1 hevent
      exact hs.goOn (hs.accounts.step hlegible hw).1 (carries_byCli hcli hw)

lemma Kept.guarded (hs : Kept s) (hunforged : Unforged s act) (hlegible : Legible s act) :
    Guarded R maxContacts s act := by
  intro s' hstep
  cases act with
  | arrive r env =>
      obtain rfl := Option.some.inj hstep
      obtain ⟨hcontacts, hjobs, hannounced, htable⟩ := (hs.arrive hunforged hlegible).same
      exact .inl ⟨hcontacts, hjobs, hannounced, htable⟩
  | serve i env =>
      obtain ⟨hfresh, hserve⟩ := Option.ite_none_right_eq_some.1 hstep
      obtain ⟨p, hp, hserve⟩ := Option.bind_eq_some_iff.1 hserve
      obtain ⟨a, ha, rfl⟩ := Option.map_eq_some_iff.1 hserve
      have hserved := hs.serve (hs.pending p (List.mem_of_getElem? hp)) hlegible hfresh ha
      rcases hserved.wrote with hsame | ⟨name, hauth, hwrote⟩
      · exact .inl ⟨hsame.contacts, hsame.jobs, hsame.announced, hsame.table⟩
      · refine .inr (.inl ⟨i, env, p, name, rfl, hp, hauth, ?_⟩)
        cases hwrote with
        | contact m io hcontacts hannounced hjobs htable =>
            exact .contact m io hcontacts hannounced hjobs htable
        | release rel uid hactor hjobs hcontacts hannounced htable =>
            exact .release rel uid hactor hjobs hcontacts hannounced htable
        | account hrows hcontacts hannounced hjobs =>
            exact .account hrows hcontacts hannounced hjobs
  | restart io =>
      obtain ⟨w, hw, rfl⟩ := Option.map_eq_some_iff.1 hstep
      exact .inl ⟨rfl, rfl, rfl, (carries_start hw).2⟩
  | useradd e =>
      obtain ⟨hcli, hevent⟩ := Option.ite_none_right_eq_some.1 hstep
      obtain ⟨w, hw, rfl⟩ := Option.map_eq_some_iff.1 hevent
      exact .inr (.inr ⟨e, rfl, rfl, rfl, rfl⟩)

lemma Kept.owned (hs : Kept s) (hunforged : Unforged s act) (hlegible : Legible s act) :
    Owned R maxContacts s act := by
  intro s' hstep huseradd g hg
  cases act with
  | arrive r env =>
      obtain rfl := Option.some.inj hstep
      have htable := (hs.arrive hunforged hlegible).same.table
      exact .inl (htable.symm ▸ hg)
  | serve i env =>
      obtain ⟨hfresh, hserve⟩ := Option.ite_none_right_eq_some.1 hstep
      obtain ⟨p, hp, hserve⟩ := Option.bind_eq_some_iff.1 hserve
      obtain ⟨a, ha, rfl⟩ := Option.map_eq_some_iff.1 hserve
      have hserved := hs.serve (hs.pending p (List.mem_of_getElem? hp)) hlegible hfresh ha
      apply (hserved.owned g hg).imp_right
      intro hown
      exact ⟨i, env, p, rfl, hp, hown⟩
  | restart io =>
      obtain ⟨w, hw, rfl⟩ := Option.map_eq_some_iff.1 hstep
      exact .inl ((carries_start hw).2.symm ▸ hg)
  | useradd e => exact absurd rfl (huseradd e)

omit [NameRunes] [Hmac] [Addresses] in
lemma kept_initial (cookieKey : Bytes) (contacts : Table) : Kept (initial cookieKey contacts) where
  accounts := Guardians.World.kept_initial cookieKey
  signed := fun _ htext => absurd htext List.not_mem_nil
  zeroFree := fun _ hpg => absurd hpg List.not_mem_nil
  pending := fun _ hp => absurd hp List.not_mem_nil

end Step

namespace Sample

/-- Origins and addresses are what is written. -/
@[reducible]
def urls : Urls := ⟨fun raw => some raw, fun a b => a = b⟩

@[reducible]
def addresses : Addresses := ⟨fun raw => some raw⟩

def login : Request where
  method := .post
  path := "/login"
  secFetchSite := "same-origin"
  form := [("guardian", "ana"), ("password", "secretsecret")]

def page : Request where
  method := .get
  path := "/contacts"
  cookie := Guardians.Sample.cookie 1

/-- A write of `ana`'s, with the token of the page. -/
def write (path : String) (form : List (String × String)) : Request where
  method := .post
  path := path
  secFetchSite := "same-origin"
  cookie := Guardians.Sample.cookie 1
  form :=
    (csrfField, String.ofList (@issueCSRF Guardians.Sample.headHmac Guardians.Sample.cookieKey
      ⟨utf8 "ana", 1, 0⟩ [7])) :: form

def env : Env where
  now := 0
  io := { info := ⟨some 9, 2⟩ }
  hash := "changedsecret"
  nonce := [7]
  mutateIO := { drawn := [some "c_1"] }

/-- `ana` gets an account, signs in, opens a page and posts a form of it. -/
def posts (r : Request) : List Act :=
  [.useradd (.start (.cli 0) {}),
    .useradd (.add (.cli 0) "ana" "secretsecret" "secretsecret" { info := ⟨some 1, 1⟩ }),
    .restart {}, .arrive login env, .serve 0 env, .arrive page env, .serve 1 env, .arrive r env,
    .serve 2 env]

def adds : List Act := posts (write "/contacts/add" [("name", "Rosa"), ("address", "rosa@x")])

def changes : List Act :=
  posts (write "/account/password" [("current_password", "secretsecret"),
    ("new_password", "changedsecret"), ("confirm_password", "changedsecret")]) ++ [.serve 2 env]

/-- The site of the sample, with room for three contacts. -/
def step : State → Act → Option State :=
  @Site.step Chaskiwasi.Sample.runes Login.Sample.passwords Guardians.Sample.headHmac urls
    addresses _ Chaskiwasi.Sample.reader 3

def fresh : State := initial Guardians.Sample.cookieKey (Table.empty 1)

end Sample

/-! ## Every run -/

section Runs

variable [Urls] [Passwords] [Runes] [NameRunes] [Hmac] [Addresses] {P : Pipeline}

end Runs

end Chaskiwasi.Site
