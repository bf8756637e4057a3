/-
**Browser authentication — account enumeration.**

Whoever asks without a session learns nothing of the accounts and the access requests of an email: the
store functions branch on them, and the handlers answer alike.

* `createOrResendAccessRequest`, `requestPasswordReset`, `findLocalUserByEmail` — what depends on them.
* `requestAccess`, `signIn`, `forgotPassword` — the handlers, over the counters of the throttles.
* `enumeration_resistant` — **databases with the same counters answer alike**, as long as no sign-in
  succeeds.
-/

import Iterabase.Auth.Throttle

namespace Iterabase.Auth.Enumeration

/-! ### Accounts, access requests and mail -/

inductive LocalUserStatus
  | setupPending
  | active
  | disabled
  deriving DecidableEq

structure LocalUser where
  id : Nat
  email : String
  emailNormalized : String
  locale : String := "en"
  status : LocalUserStatus
  passwordHash : String
  deleted : Bool := false

inductive AccessRequestState
  | verificationPending
  | approvalPending
  | approved
  | declined
  | expired
  deriving DecidableEq

structure AccessRequest where
  id : Nat
  email : String
  emailNormalized : String
  locale : String
  state : AccessRequestState

/-- A queued email: its recipient, and the access request or the account it is about. -/
inductive AuthEmailIntent
  | verifyAccess (recipientEmail : String) (accessRequestID : Nat) (locale : String)
  | resetPassword (recipientEmail : String) (recipientIdentityID : Nat) (locale : String)

structure Database where
  users : List LocalUser := []
  requests : List AccessRequest := []
  outbox : List AuthEmailIntent := []
  counters : Counters := fun _ => none

namespace Database

variable (db : Database)

def findLocalUserByEmail (normalized : String) : Option LocalUser :=
  db.users.find? fun u => u.emailNormalized = normalized ∧ ¬ u.deleted

/-- A request that waits for its review gets no mail, one that waits for its verification gets it
again, and otherwise there is a new one. -/
def createOrResendAccessRequest (delivery normalized locale : String) : Database :=
  match db.requests.find? fun r => r.emailNormalized = normalized ∧
      (r.state = .verificationPending ∨ r.state = .approvalPending) with
  | some existing =>
      if existing.state = .approvalPending then db
      else { db with outbox := .verifyAccess existing.email existing.id existing.locale :: db.outbox }
  | none => { db with
      requests := ⟨db.requests.length, delivery, normalized, locale, .verificationPending⟩ :: db.requests
      outbox := .verifyAccess delivery db.requests.length locale :: db.outbox }

def requestPasswordReset (normalized : String) : Database :=
  match db.findLocalUserByEmail normalized with
  | none => db
  | some user =>
      if user.status ≠ .active ∨ user.passwordHash = "" then db
      else { db with outbox := .resetPassword user.email user.id user.locale :: db.outbox }

end Database

/-! ### The handlers -/

inductive Body
  | error (error code : String) (retryAfterSeconds : Nat)
  | status (status : String)
  | profile (user : LocalUser)

structure Response where
  status : Nat
  body : Body
  retryAfter : Option Nat := none

def Response.signedIn (response : Response) : Bool :=
  match response.body with
  | .profile _ => true
  | _ => false

def authError (status : Nat) (code message : String) : Response := ⟨status, .error message code 0, none⟩

def accepted : Response := ⟨202, .status "accepted", none⟩

/-- A 429; only one that stops a request at the check has the header. -/
def tooMany (state : ThrottleState) (header : Bool) : Response :=
  let seconds := state.retryAfter / second + 1
  ⟨429, .error "Too many attempts. Try again shortly." "throttled" seconds,
    if header then some seconds else none⟩

/-- `CanonicalEmail`, with the delivered and the normalized form, and `VerifyPassword`. -/
structure Library where
  canonicalEmail : String → Option (String × String)
  verifyPassword : String → String → Bool

def normalizeLocale (locale : String) : String := if locale.toLower = "pt" then "pt" else "en"

section Handlers

variable (lib : Library) (db : Database) (address : Option String) (now : Nat)

def normalizedEmail (email : String) : String := ((lib.canonicalEmail email).map Prod.snd).getD ""

def requestAccess (body : Option (String × String)) : Response × Database :=
  match body with
  | none => (authError 400 "invalid_request" "Enter your work email address.", db)
  | some (email, locale) =>
      match lib.canonicalEmail email with
      | none => (authError 400 "invalid_email" "Enter a valid work email address.", db)
      | some (delivery, normalized) =>
          let r : Request := ⟨.requestAccess, address, normalized⟩
          let state := blocked db.counters r now
          if state.blocked then (tooMany state true, db)
          else (accepted, { db.createOrResendAccessRequest delivery normalized (normalizeLocale locale) with
            counters := record now r.entries db.counters })

/-- `signIn`, on the email and the password of its body; of a success the new session is left out. -/
def signIn (body : Option (String × String)) : Response × Database :=
  match body with
  | none => (authError 400 "invalid_request" "Enter your email and password.", db)
  | some (email, password) =>
      let normalized := normalizedEmail lib email
      let r : Request := ⟨.signIn, address, normalized⟩
      let state := blocked db.counters r now
      if state.blocked then (tooMany state true, db)
      else
        let counters := record now r.entries db.counters
        let failed : Response × Database :=
          (if (blocked counters r now).blocked then tooMany (blocked counters r now) false
            else authError 401 "invalid_credentials" "We could not sign you in with those details.",
            { db with counters := counters })
        match db.findLocalUserByEmail normalized with
        | none => failed
        | some user =>
            if (lib.canonicalEmail email).isSome ∧ user.status = .active ∧ user.passwordHash ≠ "" ∧
                lib.verifyPassword user.passwordHash password then
              (⟨200, .profile user, none⟩, { db with counters := clearThrottle r.entries db.counters })
            else failed

def forgotPassword (body : Option String) : Response × Database :=
  match body with
  | none => (authError 400 "invalid_request" "Enter your work email address.", db)
  | some email =>
      let normalized := normalizedEmail lib email
      let r : Request := ⟨.forgotPassword, address, normalized⟩
      let state := blocked db.counters r now
      if state.blocked then (tooMany state true, db)
      else (accepted, { (if normalized = "" then db else db.requestPasswordReset normalized) with
        counters := record now r.entries db.counters })

end Handlers

inductive Call
  | requestAccess (body : Option (String × String))
  | signIn (body : Option (String × String))
  | forgotPassword (body : Option String)

structure Visit where
  call : Call
  address : Option String
  now : Nat

def handle (lib : Library) (db : Database) (v : Visit) : Response × Database :=
  match v.call with
  | .requestAccess body => requestAccess lib db v.address v.now body
  | .signIn body => signIn lib db v.address v.now body
  | .forgotPassword body => forgotPassword lib db v.address v.now body

def run (lib : Library) : List Visit → Database → List Response × Database
  | [], db => ([], db)
  | v :: rest, db => ((handle lib db v).1 :: (run lib rest (handle lib db v).2).1,
      (run lib rest (handle lib db v).2).2)

/-! ### Two databases -/

section Same

variable {lib : Library} {db db' : Database} {v : Visit}

def Alike (answer answer' : Response × Database) : Prop :=
  answer.1 = answer'.1 ∧ answer.2.counters = answer'.2.counters

theorem signIn_failed {address : Option String} {now : Nat} {email password : String}
    (failed : (signIn lib db address now (some (email, password))).1.signedIn = false) :
    Alike (signIn lib db address now (some (email, password)))
      (signIn lib { db with users := [] } address now (some (email, password))) := by
  simp only [signIn] at failed ⊢
  split
  · exact ⟨rfl, rfl⟩
  split
  · exact ⟨rfl, rfl⟩
  · split
    · simp_all [Response.signedIn]
    · exact ⟨rfl, rfl⟩

theorem handle_alike (same : db.counters = db'.counters) (failed : (handle lib db v).1.signedIn = false)
    (failed' : (handle lib db' v).1.signedIn = false) : Alike (handle lib db v) (handle lib db' v) := by
  obtain ⟨call, address, now⟩ := v
  cases call with
  | requestAccess body =>
    simp only [handle, requestAccess, same]
    split
    · exact ⟨rfl, same⟩
    split
    · exact ⟨rfl, same⟩
    split
    · exact ⟨rfl, same⟩
    · exact ⟨rfl, rfl⟩
  | forgotPassword body =>
    simp only [handle, forgotPassword, same]
    split
    · exact ⟨rfl, same⟩
    split
    · exact ⟨rfl, same⟩
    · exact ⟨rfl, rfl⟩
  | signIn body =>
    rcases body with _ | ⟨email, password⟩
    · exact ⟨rfl, same⟩
    -- without accounts nothing is left to depend on
    have here := signIn_failed failed
    have there := signIn_failed failed'
    have middle : Alike (signIn lib { db with users := [] } address now (some (email, password)))
        (signIn lib { db' with users := [] } address now (some (email, password))) := by
      simp only [signIn, same, Database.findLocalUserByEmail, List.find?_nil]
      split <;> exact ⟨rfl, rfl⟩
    exact ⟨here.1.trans (middle.1.trans there.1.symm), here.2.trans (middle.2.trans there.2.symm)⟩

/-- **Enumeration resistance.** Whatever accounts and access requests two databases have, a sequence of
requests none of which signs in gets the same responses and leaves the same throttles. -/
theorem enumeration_resistant (visits : List Visit) (same : db.counters = db'.counters)
    (failed : ∀ r ∈ (run lib visits db).1, r.signedIn = false)
    (failed' : ∀ r ∈ (run lib visits db').1, r.signedIn = false) :
    (run lib visits db).1 = (run lib visits db').1 ∧
    (run lib visits db).2.counters = (run lib visits db').2.counters := by
  induction visits generalizing db db' with
  | nil => exact ⟨rfl, same⟩
  | cons v rest ih =>
    obtain ⟨first, failed⟩ := List.forall_mem_cons.mp failed
    obtain ⟨first', failed'⟩ := List.forall_mem_cons.mp failed'
    obtain ⟨answer, counters⟩ := handle_alike same first first'
    obtain ⟨answers, after⟩ := ih counters failed failed'
    exact ⟨by simp only [run, answer, answers], after⟩

def oneLibrary : Library where
  canonicalEmail email := if email = "Ana@x" then some ("Ana@x", "ana@x") else none
  verifyPassword hash password := hash = password

/-- An active account whose access request waits for its verification. -/
def oneAccount : Database where
  users := [⟨0, "Ana@x", "ana@x", "en", .active, "secret", false⟩]
  requests := [⟨0, "Ana@x", "ana@x", "en", .verificationPending⟩]

/-- It answers a wrong password, a request for a reset and one for access as an empty database does,
although it mails twice. -/
theorem enumeration_resistant_account :
    (run oneLibrary [⟨.signIn (some ("Ana@x", "guess")), some "a", 0⟩,
      ⟨.forgotPassword (some "Ana@x"), some "a", 1⟩,
      ⟨.requestAccess (some ("Ana@x", "en")), some "a", 2⟩] oneAccount).1 =
    (run oneLibrary [⟨.signIn (some ("Ana@x", "guess")), some "a", 0⟩,
      ⟨.forgotPassword (some "Ana@x"), some "a", 1⟩,
      ⟨.requestAccess (some ("Ana@x", "en")), some "a", 2⟩] {}).1 :=
  (enumeration_resistant _ rfl (by decide +kernel) (by decide +kernel)).1

end Same

end Iterabase.Auth.Enumeration
