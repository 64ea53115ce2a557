import NewsFlash.Accounts.SignUp

/-!
# Trying a failed sign-up again

`signUpBasics` creates the account and then writes its document; nothing takes
the account back where the second request fails. The screen shows the error and
lets the user press the button again with the same texts. `State` is the process
together with the accounts and documents of the service, and a run is any list
of attempts with the faults that the service has on each of them.
-/

namespace NewsFlash.Accounts.Retry

open NewsFlash.Library NewsFlash.Models NewsFlash.Models.Authentication NewsFlash.Accounts.SignUp

/-! ## The attempts and the service -/

structure Basics where
  firstName : String
  lastName : String
  email : String
  password : String
  country : Country

namespace Basics

variable (basics : Basics)

def signUp {α : Type} : Callback App AuthRequest α Unit :=
  Authentication.signUpBasics basics.firstName basics.lastName basics.email basics.password
    basics.country

def createUser : AuthRequest :=
  .createUser basics.firstName basics.lastName basics.email basics.password basics.country

def document : UserDocument :=
  Progress.document ⟨some (basics.firstName, basics.lastName, basics.country), none⟩

/-- The six keys of a finished attempt; the interests come with the next screen. -/
def stored (defaults : Defaults) : Defaults
  | .firstname => some (.string basics.firstName)
  | .lastname => some (.string basics.lastName)
  | .country => some (.dictionary basics.country)
  | .email => some (.string basics.email)
  | .resultLanguage => some (.string "en")
  | .isCountrySpecific => some (.bool true)
  | .interests => defaults .interests

end Basics

/-- A request that the service fails, with the error's description where it is shown. -/
inductive Fault where
  | createUser (message : String)
  | setData
deriving DecidableEq, Repr

/-- `uid` is the one of the account, should the attempt create one. -/
structure Attempt where
  fault : Option Fault := none
  uid : Uid
deriving DecidableEq, Repr

def Attempt.creates (attempt : Attempt) : Bool :=
  match attempt.fault with
  | some (.createUser _) => false
  | _ => true

/-- `reports` are the messages of the completions, oldest first. -/
structure State where
  app : App := {}
  inFlight : List AuthRequest := []
  accounts : List User := []
  documents : Uid → Option UserDocument := fun _ => none
  reports : List (Option String) := []

namespace State

def registered (s : State) (email : String) : Bool := s.accounts.any (·.email = some email)

/-- An e-mail that has an account is rejected with the description `inUse`. -/
def createUser (s : State) (inUse : String) (attempt : Attempt) (email : String) :
    Except String User :=
  match attempt.fault with
  | some (.createUser message) => .error message
  | _ => if s.registered email then .error inUse else .ok ⟨attempt.uid, some email⟩

def service (s : State) (inUse : String) (attempt : Attempt) : AuthRequest → Service
  | .createUser _ _ email _ _ => { created := s.createUser inUse attempt email }
  | _ => { error := attempt.fault = some .setData }

def perform (s : State) (service : Service) : AuthRequest → State
  | .createUser .. => { s with accounts := s.accounts ++ service.created.toOption.toList }
  | .setBasics uid firstName lastName _ country =>
      let document := Progress.document ⟨some (firstName, lastName, country), none⟩
      if service.error then s
      else { s with documents := Function.update s.documents uid (some document) }
  | _ => s

def react (s : State) (code : Callback App AuthRequest (Option String) Unit) : State :=
  let t := (code.exec s.app).2
  { s with
    app := t.store
    inFlight := s.inFlight ++ t.issued
    reports := s.reports ++ t.completed }

def serve (inUse : String) (attempt : Attempt) (s : State) (request : AuthRequest) : State :=
  let service := s.service inUse attempt request
  let s := s.perform service request
  { s with app := { s.app with
    currentUser := service.currentUser request s.app.currentUser } }.react
    (service.answer Callback.complete request)

def round (inUse : String) (attempt : Attempt) (s : State) : State :=
  s.inFlight.foldl (serve inUse attempt) { s with inFlight := [] }

end State

section Runs

variable (basics : Basics) (inUse : String)

/-- One press of the button, to the answer of its second request. -/
def attempt (s : State) (a : Attempt) : State :=
  ((s.react basics.signUp).round inUse a).round inUse a

def run (s : State) (attempts : List Attempt) : State :=
  attempts.foldl (attempt basics inUse) s

end Runs

/-- An attempt reported success and left the account with its document and the six keys. -/
structure SignedUp (basics : Basics) (s s' : State) : Prop where
  reports : s'.reports = s.reports ++ [none]
  account : ∃ user ∈ s'.accounts, user.email = some basics.email ∧
    s'.documents user.uid = some basics.document
  stored : s'.app.defaults = basics.stored s.app.defaults

/-- If every attempt so far reported an error, one without faults signs the user up. -/
def Retryable (basics : Basics) (inUse : String) (s : State) (attempts : List Attempt) : Prop :=
  (∀ report ∈ (run basics inUse s attempts).reports, report ≠ none) →
    ∀ uid, SignedUp basics (run basics inUse s attempts)
      (attempt basics inUse (run basics inUse s attempts) ⟨none, uid⟩)

/-! ## What one attempt does -/

section Attempts

variable {basics : Basics} {inUse : String} {s : State} {a : Attempt} {user : User}

theorem serve_refused {message : String}
    (hcreated : s.createUser inUse a basics.email = .error message) :
    s.serve inUse a basics.createUser = { s with reports := s.reports ++ [some message] } := by
  have hservice : s.service inUse a basics.createUser = { created := .error message } :=
    congrArg (fun created => ({ created } : Service)) hcreated
  rw [State.serve, hservice]
  simp [State.perform, State.react, Basics.createUser, Service.answer, Service.currentUser,
    signUpBasics.onCreated, Except.toOption]

theorem serve_created (hcreated : s.createUser inUse a basics.email = .ok user) :
    s.serve inUse a basics.createUser = { s with
      app := { s.app with currentUser := some user }
      inFlight := s.inFlight ++
        [.setBasics user.uid basics.firstName basics.lastName basics.email basics.country]
      accounts := s.accounts ++ [user] } := by
  have hservice : s.service inUse a basics.createUser = { created := .ok user } :=
    congrArg (fun created => ({ created } : Service)) hcreated
  rw [State.serve, hservice]
  simp [State.perform, State.react, Basics.createUser, Service.answer, Service.currentUser,
    signUpBasics.onCreated, Except.toOption]

theorem serve_unsaved (uid : Uid) (hfault : a.fault = some .setData) :
    s.serve inUse a
      (.setBasics uid basics.firstName basics.lastName basics.email basics.country) =
      { s with reports := s.reports ++ [some "User data could not be saved."] } := by
  simp [State.serve, State.service, State.perform, State.react, Service.answer,
    Service.currentUser, signUpBasics.onSaved, hfault]

theorem onSaved_apply (completion : Option String → Callback App AuthRequest (Option String) Unit)
    (t : Trace App AuthRequest (Option String)) :
    signUpBasics.onSaved completion basics.firstName basics.lastName basics.email basics.country
      false t =
      completion none { t with store := { t.store with
        defaults := basics.stored t.store.defaults } } := by
  rw [signUpBasics.onSaved]
  simp only [Bool.false_eq_true, if_false, App.store_unobserved, Callback.bind_apply]
  congr 3
  funext key
  cases key <;> rfl

theorem serve_saved (uid : Uid) (hfault : a.fault ≠ some .setData) :
    s.serve inUse a
      (.setBasics uid basics.firstName basics.lastName basics.email basics.country) = { s with
        app := { s.app with defaults := basics.stored s.app.defaults }
        documents := Function.update s.documents uid (some basics.document)
        reports := s.reports ++ [none] } := by
  simp [State.serve, State.service, State.perform, State.react, Service.answer,
    Service.currentUser, onSaved_apply, hfault, Basics.document]

theorem round_quiet (hquiet : s.inFlight = []) : s.round inUse a = s := by
  obtain ⟨app, inFlight, accounts, documents, reports⟩ := s
  obtain rfl : inFlight = [] := hquiet
  rfl

theorem round_single {request : AuthRequest} (hsent : s.inFlight = [request]) :
    s.round inUse a = { s with inFlight := [] }.serve inUse a request := by
  rw [State.round, hsent, List.foldl_cons, List.foldl_nil]

/-- The button sends `createUser`; what its answer sends is answered next. -/
theorem attempt_eq (hquiet : s.inFlight = []) :
    attempt basics inUse s a = (s.serve inUse a basics.createUser).round inUse a := by
  obtain ⟨app, inFlight, accounts, documents, reports⟩ := s
  obtain rfl : inFlight = [] := hquiet
  have hsent : State.react ⟨app, [], accounts, documents, reports⟩ basics.signUp =
      ⟨app, [basics.createUser], accounts, documents, reports⟩ := by
    simp [State.react, Basics.signUp, Authentication.signUpBasics, Basics.createUser]
  rw [attempt, hsent, round_single (s := ⟨app, [basics.createUser], _, _, _⟩) rfl]

theorem attempt_refused {message : String} (hquiet : s.inFlight = [])
    (hcreated : s.createUser inUse a basics.email = .error message) :
    attempt basics inUse s a = { s with reports := s.reports ++ [some message] } := by
  rw [attempt_eq hquiet, serve_refused hcreated]
  exact round_quiet hquiet

theorem attempt_unsaved (hquiet : s.inFlight = [])
    (hcreated : s.createUser inUse a basics.email = .ok user) (hfault : a.fault = some .setData) :
    attempt basics inUse s a = { s with
      app := { s.app with currentUser := some user }
      accounts := s.accounts ++ [user]
      reports := s.reports ++ [some "User data could not be saved."] } := by
  rw [attempt_eq hquiet, serve_created hcreated, hquiet, List.nil_append, round_single rfl,
    serve_unsaved _ hfault]

theorem attempt_saved (hquiet : s.inFlight = [])
    (hcreated : s.createUser inUse a basics.email = .ok user) (hfault : a.fault ≠ some .setData) :
    attempt basics inUse s a = { s with
      app := { s.app with
        currentUser := some user
        defaults := basics.stored s.app.defaults }
      accounts := s.accounts ++ [user]
      documents := Function.update s.documents user.uid (some basics.document)
      reports := s.reports ++ [none] } := by
  rw [attempt_eq hquiet, serve_created hcreated, hquiet, List.nil_append, round_single rfl,
    serve_saved _ hfault]

/-! ## Which accounts are refused -/

variable (inUse)

theorem createUser_failed (hcreates : a.creates = false) (email : String) :
    ∃ message, s.createUser inUse a email = .error message := by
  obtain ⟨_ | message | _, uid⟩ := a
  · cases hcreates
  · exact ⟨message, rfl⟩
  · cases hcreates

theorem createUser_creates (hcreates : a.creates = true) (email : String) :
    s.createUser inUse a email =
      if s.registered email then .error inUse else .ok ⟨a.uid, some email⟩ := by
  obtain ⟨_ | message | _, uid⟩ := a
  · rfl
  · cases hcreates
  · rfl

theorem createUser_registered {email : String} (hregistered : s.registered email = true) :
    ∃ message, s.createUser inUse a email = .error message := by
  cases hcreates : a.creates with
  | false => exact createUser_failed inUse hcreates email
  | true => exact ⟨inUse, by rw [createUser_creates inUse hcreates, if_pos hregistered]⟩

theorem createUser_free {email : String} (hfree : s.registered email = false)
    (hcreates : a.creates = true) :
    s.createUser inUse a email = .ok ⟨a.uid, some email⟩ := by
  rw [createUser_creates inUse hcreates, hfree, if_neg Bool.false_ne_true]

end Attempts

/-! ## What a run of attempts leaves -/

/-- No attempt is under way and none has reported success; the account exists or not. -/
structure Failed (basics : Basics) (registered : Bool) (s : State) : Prop where
  quiet : s.inFlight = []
  registered : s.registered basics.email = registered
  reports : ∀ report ∈ s.reports, report ≠ none

section Runs

variable {basics : Basics} {inUse : String} {s : State} {a : Attempt} {attempts : List Attempt}

theorem Failed.reported {registered : Bool} {s' : State} (h : Failed basics registered s)
    {message : String} (hreports : s'.reports = s.reports ++ [some message]) :
    ∀ report ∈ s'.reports, report ≠ none := by
  intro report hreport
  rw [hreports, List.mem_append, List.mem_singleton] at hreport
  obtain hreport | rfl := hreport
  · exact h.reports report hreport
  · exact Option.some_ne_none message

theorem Failed.refused {registered : Bool} (h : Failed basics registered s)
    (hcreated : ∃ message, s.createUser inUse a basics.email = .error message) :
    Failed basics registered (attempt basics inUse s a) := by
  obtain ⟨message, hcreated⟩ := hcreated
  have hattempt := attempt_refused h.quiet hcreated
  exact {
    quiet := by rw [hattempt, h.quiet]
    registered := by rw [hattempt, ← h.registered, State.registered, State.registered]
    reports := h.reported (congrArg State.reports hattempt) }

/-- Once the account exists, every attempt fails. -/
theorem Failed.run (h : Failed basics true s) :
    Failed basics true (run basics inUse s attempts) := by
  induction attempts generalizing s with
  | nil => exact h
  | cons a attempts ih => exact ih (h.refused (createUser_registered inUse h.registered))

theorem Failed.unsaved (h : Failed basics false s) (hfault : a.fault = some .setData) :
    Failed basics true (attempt basics inUse s a) := by
  have hcreates : a.creates = true := by rw [Attempt.creates, hfault]
  have hattempt := attempt_unsaved h.quiet
    (createUser_free inUse h.registered hcreates) hfault
  exact {
    quiet := by rw [hattempt, h.quiet]
    registered := by simp [hattempt, State.registered]
    reports := h.reported (congrArg State.reports hattempt) }

theorem attempt_reports (basics : Basics) (inUse : String) (a : Attempt)
    (hquiet : s.inFlight = []) :
    (attempt basics inUse s a).inFlight = [] ∧
      ∃ report, (attempt basics inUse s a).reports = s.reports ++ [report] := by
  cases hcreated : s.createUser inUse a basics.email with
  | error message =>
      rw [attempt_refused hquiet hcreated]
      exact ⟨hquiet, some message, rfl⟩
  | ok user =>
      by_cases hfault : a.fault = some .setData
      · rw [attempt_unsaved hquiet hcreated hfault]
        exact ⟨hquiet, _, rfl⟩
      · rw [attempt_saved hquiet hcreated hfault]
        exact ⟨hquiet, none, rfl⟩

theorem mem_reports_run {report : Option String} (hquiet : s.inFlight = [])
    (h : report ∈ s.reports) : report ∈ (run basics inUse s attempts).reports := by
  induction attempts generalizing s with
  | nil => exact h
  | cons a attempts ih =>
      obtain ⟨hquiet', report', hreports⟩ := attempt_reports basics inUse a hquiet
      apply ih hquiet'
      rw [hreports]
      exact List.mem_append_left _ h

/-! ## When the last attempt succeeds -/

theorem Failed.signedUp (h : Failed basics false s) (uid : Uid) :
    SignedUp basics s (attempt basics inUse s ⟨none, uid⟩) := by
  have hcreated : s.createUser inUse ⟨none, uid⟩ basics.email = .ok ⟨uid, some basics.email⟩ :=
    createUser_free inUse h.registered rfl
  rw [attempt_saved h.quiet hcreated (by simp)]
  exact {
    reports := rfl
    account := ⟨⟨uid, some basics.email⟩, by simp, rfl, by simp⟩
    stored := rfl }

theorem Failed.not_signedUp (h : Failed basics true s) :
    ¬ SignedUp basics s (attempt basics inUse s a) := by
  intro hsigned
  have hfailed := h.refused (a := a) (createUser_registered inUse h.registered)
  apply hfailed.reports none ?_ rfl
  rw [hsigned.reports]
  simp

theorem retryable_iff (h : Failed basics false s) :
    Retryable basics inUse s attempts ↔
      ∀ a ∈ attempts.find? Attempt.creates, a.fault ≠ some .setData := by
  induction attempts generalizing s with
  | nil => exact iff_of_true (fun _ uid => h.signedUp uid) (by simp)
  | cons a attempts ih =>
      cases hcreates : a.creates with
      | false =>
          rw [List.find?_cons_of_neg (by simp [hcreates])]
          exact ih (h.refused (createUser_failed inUse hcreates basics.email))
      | true =>
          rw [List.find?_cons_of_pos hcreates]
          simp only [Option.mem_some_iff, forall_eq']
          by_cases hfault : a.fault = some .setData
          · have hrun : Failed basics true (run basics inUse s (a :: attempts)) :=
              (h.unsaved hfault).run
            refine iff_of_false (fun hretry => ?_) (not_not_intro hfault)
            exact hrun.not_signedUp (hretry hrun.reports "")
          · have hattempt := attempt_saved h.quiet
              (createUser_free inUse h.registered hcreates) hfault
            have hnone : none ∈ (run basics inUse s (a :: attempts)).reports := by
              apply mem_reports_run (attempt_reports basics inUse a h.quiet).1
              rw [hattempt]
              simp
            exact iff_of_true (fun herrors => absurd rfl (herrors none hnone)) hfault

end Runs

/-! ## Every sequence of attempts -/

/-- **Retrying.** For every profile and every e-mail without an account, and every
sequence of attempts that reported errors, an attempt without faults reports success and
leaves the account with its document and the six keys, exactly where the first attempt
whose `createUser` the service served, if there is one, had its `setData` served too. -/
theorem retries_succeed (basics : Basics) (inUse : String) (app : App) (accounts : List User)
    (documents : Uid → Option UserDocument)
    (hfree : ∀ user ∈ accounts, user.email ≠ some basics.email) (attempts : List Attempt) :
    Retryable basics inUse { app, accounts, documents } attempts ↔
      ∀ a ∈ attempts.find? Attempt.creates, a.fault ≠ some .setData := by
  apply retryable_iff
  exact {
    quiet := rfl
    registered := by simpa [State.registered] using hfree
    reports := by simp }

def ada : Basics where
  firstName := "Ada"
  lastName := "Byron"
  email := "ada@example.com"
  password := "Difference1"
  country := [("short", "gb"), ("full", "United Kingdom")]

/-- The service was out of reach twice. -/
theorem retries_succeed_offline :
    (∀ user ∈ [User.mk "charles" (some "charles@example.com")], user.email ≠ some ada.email) ∧
    Retryable ada "The e-mail is in use."
      { accounts := [⟨"charles", some "charles@example.com"⟩] }
      [⟨some (.createUser "The network failed."), "ada"⟩,
        ⟨some (.createUser "The network failed."), "ada"⟩] :=
  ⟨by decide, (retries_succeed ada "The e-mail is in use." {}
    [⟨"charles", some "charles@example.com"⟩] (fun _ => none) (by decide) _).mpr (by decide)⟩

/-- The document could not be saved, so the e-mail is in use at the next attempt. -/
theorem retry_rejected : ¬ ∀ (basics : Basics) (inUse : String) (app : App)
    (accounts : List User) (documents : Uid → Option UserDocument) (attempts : List Attempt),
    (∀ user ∈ accounts, user.email ≠ some basics.email) →
      Retryable basics inUse { app, accounts, documents } attempts := by
  intro h
  have hretry := h ada "The e-mail is in use." {} [] (fun _ => none)
    [⟨some .setData, "ada"⟩] (by simp)
  have hfailed : Failed ada true (run ada "The e-mail is in use." {} [⟨some .setData, "ada"⟩]) :=
    Failed.unsaved ⟨rfl, rfl, by simp⟩ rfl
  exact hfailed.not_signedUp (hretry hfailed.reports "ada")

end NewsFlash.Accounts.Retry
