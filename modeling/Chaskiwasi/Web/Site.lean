import Chaskiwasi.Web.Forms
import Chaskiwasi.Web.Held

/-!
# The guardian listener

Every route but the sign-in is behind `requireSession`, which reads the session cookie and, for a
write, checks where it comes from and the token of its form.  What a request wants done is done
later, by its handler, and in between the others take their steps: a request that was let in is
pending (`Pending`), and one step of the site lets a request in or turns it away, or makes a pending
one's next call.  A change of password makes two calls, and a sign-in waits for its throttle.

The accounts are the `World` of sessions, and the runs of `wasi useradd` next to the server are its
events.  What a release does in the mailbox is filing's: the site hands the job over.
-/

namespace Chaskiwasi.Site

open Pututu (Bytes)
open Guardians (Hmac Io Session Held text? utf8 parseUint)

/-- `mail.ParseAddress`: the addr-spec, where the text is an address. -/
class Addresses where
  parseAddress : String → Option String

/-! ## Routes -/

inductive Route
  | static
  | loginForm
  | login
  | logout
  | dashboard
  | deviceStatusFragment
  | contacts
  | contactAdd
  | contactDeactivate
  | contactReactivate
  | contactReaddress
  | held
  | heldFragment
  | heldRelease
  | changeLog
  | settings
  | account
  | passwordChange
  | guardianAdd
  deriving DecidableEq, Repr

/-- A pattern of the mux; a subtree takes every path that begins with it. -/
structure Pattern where
  method : Method
  path : String
  subtree : Bool := false
  route : Route
  deriving DecidableEq, Repr

/-- `Handler`: what is registered, in its order. -/
def patterns : List Pattern :=
  [{ method := .get, path := "/static/", subtree := true, route := .static },
    { method := .get, path := "/login", route := .loginForm },
    { method := .post, path := "/login", route := .login },
    { method := .post, path := "/logout", route := .logout },
    { method := .get, path := "/", route := .dashboard },
    { method := .get, path := "/status/device", route := .deviceStatusFragment },
    { method := .get, path := "/contacts", route := .contacts },
    { method := .post, path := "/contacts/add", route := .contactAdd },
    { method := .post, path := "/contacts/deactivate", route := .contactDeactivate },
    { method := .post, path := "/contacts/reactivate", route := .contactReactivate },
    { method := .post, path := "/contacts/readdress", route := .contactReaddress },
    { method := .get, path := "/held", route := .held },
    { method := .get, path := "/held/list", route := .heldFragment },
    { method := .post, path := "/held/release", route := .heldRelease },
    { method := .get, path := "/changes", route := .changeLog },
    { method := .get, path := "/settings", route := .settings },
    { method := .get, path := "/account", route := .account },
    { method := .post, path := "/account/password", route := .passwordChange },
    { method := .post, path := "/account/add", route := .guardianAdd }]

namespace Pattern

variable (p : Pattern)

def onPath (path : String) : Bool :=
  if p.subtree then p.path.toList.isPrefixOf path.toList else p.path = path

/-- A pattern for GET answers HEAD as well. -/
def takes (m : Method) : Bool := m = p.method || (p.method = .get && m = .head)

end Pattern

/-- What the mux makes of a request for a clean path: a route, or a status. -/
def serveMux (r : Request) : Except ℕ Route :=
  match patterns.find? fun p => p.onPath r.path && p.takes r.method with
  | some p => .ok p.route
  | none => .error (if patterns.any fun p => p.onPath r.path then 405 else 404)

/-- The routes whose page or fragment has forms of its own. -/
def Route.hasForms : Route → Bool
  | .dashboard | .contacts | .held | .heldFragment | .changeLog | .settings | .account => true
  | _ => false

/-! ## Answers -/

/-- The outcome of a write, as it travels in the query. -/
inductive FlashCode
  | signedOut
  | contactAdded
  | contactDeactivated
  | contactReactivated
  | contactReaddressed
  | contactsFull
  | contactInvalid
  | contactFailed
  | noticeLate
  | released
  | releaseFailed
  | passwordChanged
  | passwordWrong
  | passwordWeak
  | passwordMismatch
  | guardianAdded
  | guardianExists
  | guardianInvalid
  deriving DecidableEq, Repr

def FlashCode.code : FlashCode → String
  | .signedOut => "signed-out"
  | .contactAdded => "contact-added"
  | .contactDeactivated => "contact-off"
  | .contactReactivated => "contact-on"
  | .contactReaddressed => "contact-address"
  | .contactsFull => "contacts-full"
  | .contactInvalid => "contact-invalid"
  | .contactFailed => "contact-failed"
  | .noticeLate => "notice-late"
  | .released => "released"
  | .releaseFailed => "release-failed"
  | .passwordChanged => "password-changed"
  | .passwordWrong => "password-wrong"
  | .passwordWeak => "password-weak"
  | .passwordMismatch => "password-mismatch"
  | .guardianAdded => "guardian-added"
  | .guardianExists => "guardian-exists"
  | .guardianInvalid => "guardian-invalid"

structure Response where
  status : ℕ
  location : String := ""
  /-- The session cookie that is set; the empty text clears it. -/
  setCookie : Option (List Char) := none
  retryAfter : Option ℤ := none
  deriving DecidableEq, Repr

def redirect (path : String) (code : FlashCode) : Response where
  status := 303
  location := path ++ "?m=" ++ code.code

def Response.clearSessionCookie (r : Response) : Response := { r with setCookie := some [] }

/-- `formatSeconds`: whole seconds, rounded up, and never below one. -/
def formatSeconds (d : ℤ) : ℤ :=
  let secs := (d + 999 * 1000000) / second
  if secs < 1 then 1 else secs

/-! ## The site -/

/-- A token on a page: whom it is for, and its nonce as it is signed. -/
structure Page where
  guardian : Bytes
  epoch : ℤ
  nonce : Bytes
  deriving DecidableEq, Repr

def Page.text (pg : Page) : Bytes := Guardians.csrfText pg.guardian pg.epoch pg.nonce

/-- How far the handler of a request has got. -/
inductive Stage
  /-- About to make its call. -/
  | handle (sess : Session)
  /-- The current password was verified; the new one is about to be set. -/
  | change (sess : Session) (verified : Held)
  /-- A sign-in that was verified, about to be minted. -/
  | signIn (verified : Held)
  /-- A sign-in that failed, waiting. -/
  | failing (name : String) (since : ℤ)
  | answered (resp : Response)
  deriving DecidableEq, Repr

/-- A request that was let in, when, and the changes of password until then. -/
structure Pending where
  req : Request
  route : Route
  time : ℤ
  changed : List String
  stage : Stage
  deriving DecidableEq, Repr

structure State where
  accounts : Guardians.World
  throttle : Throttle := fun _ => none
  contacts : Table
  pending : List Pending := []
  /-- The jobs that were handed to filing, and the events of the contact changes that the site made,
  newest first. -/
  jobs : List Job := []
  announced : List Event := []
  /-- The tokens on the pages that were rendered.  No procedure reads these. -/
  pages : List Page := []

/-- What the world outside answers while a step runs. -/
structure Env where
  now : ℤ
  io : Io := {}
  /-- The hash of a new password. -/
  hash : String := ""
  nonce : Bytes := []
  mutateIO : MutateIO := {}
  /-- The listing of Held, where it can be had, and whether filing released the message. -/
  held : Option Folder := none
  filed : Bool := true
  /-- Whether the change was announced in time. -/
  announced : Bool := true

/-- Who a session is of. -/
def sessionName (sess : Session) : String := (text? sess.guardian).getD ""

def mutationFlash : MutateError → FlashCode
  | .maxContacts => .contactsFull
  | .unknownContact | .systemContact => .contactInvalid
  | _ => .contactFailed

/-- `strconv.ParseUint` in base ten and 32 bits. -/
def parseUID (s : String) : Option UID :=
  (parseUint (utf8 s)).bind fun n => if h : n < 2 ^ 32 then some ⟨n, h⟩ else none

section Handlers

variable [Runes] (maxContacts : ℕ) (s : State) (env : Env)

/-- The single call site of every contact change. -/
def mutate (back : String) (m : Mutation) (actor : String) (ok : FlashCode) : State × Response :=
  match Chaskiwasi.mutate maxContacts env.mutateIO actor m s.contacts with
  | (.error e, t) => ({ s with contacts := t }, redirect back (mutationFlash e))
  | (.ok ev, t) =>
      ({ s with contacts := t, announced := ev :: s.announced },
        redirect back (if env.announced then ok else .noticeLate))

variable (r : Request) (sess : Session)

/-- `parseAddress`, of a field of the form. -/
def formAddress [Addresses] (r : Request) : Option String :=
  let raw := String.ofList (trimSpace (r.postFormValue "address").toList)
  if raw = "" then none else Addresses.parseAddress raw

def handleContactAdd [Addresses] : State × Response :=
  let name := String.ofList (trimSpace (r.postFormValue "name").toList)
  match formAddress r with
  | none => (s, redirect "/contacts" .contactInvalid)
  | some address =>
      if name = "" then (s, redirect "/contacts" .contactInvalid)
      else
        mutate maxContacts s env "/contacts"
          { action := .add, name := name, address := address } (sessionName sess) .contactAdded

def handleContactDeactivate : State × Response :=
  mutate maxContacts s env "/contacts"
    { action := .deactivate, contactID := r.postFormValue "contact_id" } (sessionName sess)
    .contactDeactivated

def handleContactReactivate : State × Response :=
  mutate maxContacts s env "/contacts"
    { action := .reactivate, contactID := r.postFormValue "contact_id" } (sessionName sess)
    .contactReactivated

def handleContactReaddress [Addresses] : State × Response :=
  match formAddress r with
  | none => (s, redirect "/contacts" .contactInvalid)
  | some address =>
      mutate maxContacts s env "/contacts"
        { action := .readdress, contactID := r.postFormValue "contact_id", address := address }
        (sessionName sess) .contactReaddressed

/-- What is told of a release; one that changed no contact has nothing to announce. -/
def releaseFlash (job : Job) (env : Env) : FlashCode :=
  if env.filed = false then .releaseFailed
  else
    match job with
    | .release .active _ => .released
    | _ => if env.announced then .released else .noticeLate

/-- Hands the release over to filing. -/
def handleHeldRelease {P : Pipeline} (R : Review.Reader P) : State × Response :=
  match parseUID (r.postFormValue "uid"), env.held with
  | some uid, some held =>
      match Review.handleHeldRelease R s.contacts held uid (sessionName sess)
        (r.postFormValue "name") with
      | .error _ => (s, redirect "/held" .releaseFailed)
      | .ok job =>
          ({ s with jobs := job :: s.jobs }, redirect "/held" (releaseFlash job env))
  | _, _ => (s, redirect "/held" .releaseFailed)

def handleLogout : State × Response :=
  (s, (redirect "/login" .signedOut).clearSessionCookie)

def guardianFlash : Guardians.Err → FlashCode
  | .exists => .guardianExists
  | .invalidName => .guardianInvalid
  | .weakPassword => .passwordWeak
  | _ => .guardianInvalid

def handleGuardianAdd : State × Response :=
  if r.postFormValue "password" ≠ r.postFormValue "confirm_password" then
    (s, redirect "/account" .passwordMismatch)
  else
    match s.accounts.add .server env.io (r.postFormValue "guardian") (r.postFormValue "password")
      env.hash with
    | (.error e, w) => ({ s with accounts := w }, redirect "/account" (guardianFlash e))
    | (.ok _, w) => ({ s with accounts := w }, redirect "/account" .guardianAdded)

/-- `FileStore.Verify`, with the row that is given out where the password is right. -/
def verify [Passwords] (w : Guardians.World) (io : Io) (name password : String) :
    Option Held × Guardians.World :=
  let w' := w.setStore .server (w.refreshed .server io)
  match Guardians.verify (w.refreshed .server io).byName name password with
  | .error _ => (none, w')
  | .ok g =>
      let h : Held := ⟨g, w.changed, w'.changed⟩
      (some h, { w' with held := w'.held ++ [h] })

/-- `handlePasswordChange`, up to its second call. -/
def handlePasswordChange [Passwords] : State × Stage :=
  if r.postFormValue "new_password" ≠ r.postFormValue "confirm_password" then
    (s, .answered (redirect "/account" .passwordMismatch))
  else
    match verify s.accounts env.io (sessionName sess) (r.postFormValue "current_password") with
    | (none, w) => ({ s with accounts := w }, .answered (redirect "/account" .passwordWrong))
    | (some h, w) => ({ s with accounts := w }, .change sess h)

variable [Hmac]

/-- The value of the cookie that `mintSession` makes of a row. -/
def mintedCookie (w : Guardians.World) (h : Held) (now : ℤ) : List Char :=
  Guardians.cookieOf w.cookieKey
    (Guardians.Minted.payload ⟨h, now + Guardians.sessionLifetime⟩)

/-- The second call of `handlePasswordChange`, and a session for the row that it leaves. -/
def setPassword (verified : Held) : State × Response :=
  match s.accounts.setPassword .server env.io (sessionName sess) (r.postFormValue "new_password")
    env.hash with
  | (.error e, w) =>
      ({ s with accounts := w },
        redirect "/account" (if e = .weakPassword then .passwordWeak else .passwordWrong))
  | (.ok g, w) =>
      let h : Held := ⟨g, verified.verified, w.changed⟩
      let w' := ({ w with held := w.held ++ [h] } : Guardians.World).mintSession h env.now
      ({ s with accounts := w' },
        { redirect "/account" .passwordChanged with setCookie := mintedCookie w h env.now })

/-- A page or a fragment, with a token where it has forms. -/
def render (rt : Route) : State × Response :=
  if rt.hasForms then
    let pg : Page :=
      ⟨sess.guardian, sess.epoch, nonceBytes (Guardians.encodeBytes env.nonce)⟩
    ({ s with
        accounts := { s.accounts with signed := pg.text :: s.accounts.signed }
        pages := pg :: s.pages },
      { status := 200 })
  else (s, { status := 200 })

end Handlers

section Steps

variable [Runes] [Passwords] [Hmac] [Urls] [Addresses] {P : Pipeline} (R : Review.Reader P)
  (maxContacts : ℕ) (s : State)

/-- What `requireSession` makes of a request: a session, or an answer. -/
def requireSession (r : Request) (env : Env) : State × Except Response Session :=
  let out := (redirect "/login" .signedOut).clearSessionCookie
  match r.cookie with
  | none => (s, .error out)
  | some value =>
      let s' : State := { s with accounts := (s.accounts.readSession env.io value env.now).2 }
      match (s.accounts.readSession env.io value env.now).1 with
      | .error _ => (s', .error out)
      | .ok sess =>
          if r.method.safe then (s', .ok sess)
          else if checkOrigin r = false then (s', .error { status := 403 })
          else if checkCSRF s.accounts.cookieKey r sess = false then (s', .error { status := 403 })
          else (s', .ok sess)

/-- `handleLoginForm`: a session that is valid is bounced. -/
def handleLoginForm (r : Request) (env : Env) : State × Response :=
  match r.cookie with
  | none => (s, { status := 200 })
  | some value =>
      let s' : State := { s with accounts := (s.accounts.readSession env.io value env.now).2 }
      match (s.accounts.readSession env.io value env.now).1 with
      | .error _ => (s', { status := 200 })
      | .ok _ => (s', { status := 303, location := "/" })

/-- `handleLogin`, up to where it mints or waits. -/
def handleLogin (r : Request) (env : Env) : State × Stage :=
  let name := r.postFormValue "guardian"
  if checkOrigin r = false then (s, .answered { status := 403 })
  else if (s.throttle.check name env.now).1 = false then
    (s, .answered
      { status := 429, retryAfter := some (formatSeconds (s.throttle.check name env.now).2) })
  else
    match verify s.accounts env.io name (r.postFormValue "password") with
    | (none, w) => ({ s with accounts := w }, .failing name env.now)
    | (some h, w) => ({ s with accounts := w }, .signIn h)

/-- A request comes in. -/
def arrive (r : Request) (env : Env) : State × Stage × Route :=
  match serveMux r with
  | .error status => (s, .answered { status := status }, .static)
  | .ok .static => (s, .answered { status := 200 }, .static)
  | .ok .loginForm =>
      ((handleLoginForm s r env).1, .answered (handleLoginForm s r env).2, .loginForm)
  | .ok .login => ((handleLogin s r env).1, (handleLogin s r env).2, .login)
  | .ok rt =>
      match requireSession s r env with
      | (s', .error resp) => (s', .answered resp, rt)
      | (s', .ok sess) => (s', .handle sess, rt)

/-- The call of a handler behind `requireSession`. -/
def handle (rt : Route) (r : Request) (sess : Session) (env : Env) : State × Stage :=
  let answer : State × Response → State × Stage := fun a => (a.1, .answered a.2)
  match rt with
  | .logout => answer (handleLogout s)
  | .contactAdd => answer (handleContactAdd maxContacts s env r sess)
  | .contactDeactivate => answer (handleContactDeactivate maxContacts s env r sess)
  | .contactReactivate => answer (handleContactReactivate maxContacts s env r sess)
  | .contactReaddress => answer (handleContactReaddress maxContacts s env r sess)
  | .heldRelease => answer (handleHeldRelease s env r sess R)
  | .guardianAdd => answer (handleGuardianAdd s env r)
  | .passwordChange => handlePasswordChange s env r sess
  | rt => answer (render s env sess rt)

/-- The next call of a pending request. -/
def serve (p : Pending) (env : Env) : Option (State × Stage) :=
  match p.stage with
  | .handle sess => some (handle R maxContacts s p.route p.req sess env)
  | .change sess verified =>
      let a := setPassword s env p.req sess verified
      some (a.1, .answered a.2)
  | .signIn verified =>
      let name := p.req.postFormValue "guardian"
      some ({ s with
          throttle := s.throttle.succeed name
          accounts := s.accounts.mintSession verified env.now },
        .answered { status := 303, location := "/",
                    setCookie := mintedCookie s.accounts verified env.now })
  | .failing name since =>
      if env.now < since + failureDelay then none
      else some ({ s with throttle := s.throttle.fail name env.now }, .answered { status := 401 })
  | .answered _ => none

inductive Act
  | arrive (r : Request) (env : Env)
  | serve (i : ℕ) (env : Env)
  /-- The server is started anew. -/
  | restart (io : Io)
  /-- A step of a run of `wasi useradd`. -/
  | useradd (e : Guardians.Event)

/-- Whether a process other than the server takes the step. -/
def byCli : Guardians.Event → Bool
  | .start (.cli _) _ | .add (.cli _) .. | .setPassword (.cli _) .. | .get (.cli _) .. => true
  | _ => false

def step (s : State) (act : Act) : Option State :=
  match act with
  | .arrive r env =>
      let a := arrive s r env
      some { a.1 with
        pending := a.1.pending ++ [⟨r, a.2.2, env.now, s.accounts.changed, a.2.1⟩] }
  | .serve i env =>
      if s.accounts.Fresh env.io then
        (s.pending[i]?).bind fun p =>
          (serve R maxContacts s p env).map fun a =>
            { a.1 with pending := a.1.pending.set i { p with stage := a.2 } }
      else none
  | .restart io =>
      (s.accounts.step (.start .server io)).map fun w =>
        { s with accounts := w, throttle := fun _ => none, pending := [] }
  | .useradd e =>
      if byCli e then (s.accounts.step e).map fun w => { s with accounts := w } else none

end Steps

/-- A site that nobody has used. -/
def initial (cookieKey : Bytes) (contacts : Table) : State where
  accounts := Guardians.World.initial cookieKey
  contacts := contacts

end Chaskiwasi.Site
