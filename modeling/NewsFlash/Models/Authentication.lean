import NewsFlash.Models.App

/-!
# The authentication operations

Sign-up writes the user's document in two steps, `signUpBasics` and
`signUpInterests`; `login` and `updateUserData` read it back in other sessions
and cast every field. As for the network operations, each closure is a
definition of its own.
-/

namespace NewsFlash.Models.Authentication

open NewsFlash.Library

variable {ρ α : Type}

/-- The fields of `users/<uid>` that the app reads; each of them may be missing. -/
structure UserDocument where
  firstname : Option Value := none
  lastname : Option Value := none
  country : Option Value := none
  interests : Option Value := none
deriving DecidableEq, Repr

abbrev Country := List (String × String)

/-- A request with what its closure captures. -/
inductive AuthRequest where
  | signIn (email password : String)
  | loginDocument (uid : Uid) (email : String)
  | userData (uid : Uid)
  | createUser (firstName lastName email password : String) (country : Country)
  | setBasics (uid : Uid) (firstName lastName email : String) (country : Country)
  | mergeInterests (uid : Uid) (interests : List String)
deriving DecidableEq, Repr

/-! ## The operations -/

section Operations

variable (completion : Option String → Callback App AuthRequest α Unit)

def login (email password : String) : Callback App AuthRequest α Unit :=
  Callback.send (.signIn email password)

/-- The result of a sign-in is an error's description or the user. -/
def login.onSignIn (email : String) : Except String User → Callback App AuthRequest α Unit
  | .error message => completion (some message)
  | .ok user => Callback.send (.loginDocument user.uid email)

/-- The document is `none` where it does not exist or could not be fetched. -/
def login.onDocument [Observers] (email : String) :
    Option UserDocument → Callback App AuthRequest α Unit
  | some document => do
      let lastname ← Callback.forced (document.lastname.bind Value.asString)
      App.store .lastname (.string lastname)
      let firstname ← Callback.forced (document.firstname.bind Value.asString)
      App.store .firstname (.string firstname)
      let country ← Callback.forced (document.country.bind Value.asDictionary)
      App.store .country (.dictionary country)
      let interests ← Callback.forced (document.interests.bind Value.asStrings)
      App.store .interests (.strings interests)
      App.store .email (.string email)
      App.store .resultLanguage (.string "en")
      App.store .isCountrySpecific (.bool true)
      completion none
  -- Only "Document does not exist" is printed.
  | none => return

/-- `ok` tells whether the authentication service could sign the user out. -/
def signOut [Observers] (completion : Bool → Callback App ρ α Unit) (ok : Bool) :
    Callback App ρ α Unit := do
  if ok then
    Callback.write fun app => { app with currentUser := none }
    App.removeUserInfo
    completion true
  else
    completion false

def updateUserData : Callback App AuthRequest α Unit := do
  let currentUser ← App.forcedCurrentUser
  Callback.send (.userData currentUser.uid)

def updateUserData.onDocument [Observers] : Option UserDocument → Callback App AuthRequest α Unit
  | some document => do
      App.store .firstname (← Callback.forced document.firstname)
      App.store .lastname (← Callback.forced document.lastname)
      let currentUser ← App.forcedCurrentUser
      let email ← Callback.forced currentUser.email
      App.store .email (.string email)
      let country ← Callback.forced (document.country.bind Value.asDictionary)
      App.store .country (.dictionary country)
      let interests ← Callback.forced (document.interests.bind Value.asStrings)
      App.store .interests (.strings interests)
  | none => return

def signUpBasics (firstName lastName email password : String) (country : Country) :
    Callback App AuthRequest α Unit :=
  Callback.send (.createUser firstName lastName email password country)

def signUpBasics.onCreated (firstName lastName email : String) (country : Country) :
    Except String User → Callback App AuthRequest α Unit
  | .error message => completion (some message)
  | .ok user => Callback.send (.setBasics user.uid firstName lastName email country)

def signUpBasics.onSaved [Observers] (firstName lastName email : String) (country : Country)
    (error : Bool) : Callback App AuthRequest α Unit := do
  if error then completion (some "User data could not be saved.")
  else
    App.store .firstname (.string firstName)
    App.store .lastname (.string lastName)
    App.store .country (.dictionary country)
    App.store .email (.string email)
    App.store .resultLanguage (.string "en")
    App.store .isCountrySpecific (.bool true)
    completion none

def signUpInterests (interests : List String) : Callback App AuthRequest α Unit := do
  let currentUser ← App.forcedCurrentUser
  Callback.send (.mergeInterests currentUser.uid interests)

def signUpInterests.onSaved (error : Bool) : Callback App AuthRequest α Unit := do
  if error then completion (some "Interests could not be saved.")
  else completion none

end Operations

/-- The completion that `SignUpInterestsViewController` gives to `signUpInterests`. It completes
where it makes the button expand. -/
def SignUpInterestsViewController.onSignedUp : Option String → Callback App ρ Unit Unit
  | some _ => return
  | none => Callback.complete ()

/-- The button has expanded; pills may have been tapped in the meantime. -/
def SignUpInterestsViewController.onExpanded [Observers] (selectedInterests : List String) :
    Callback App ρ α Unit :=
  App.store .interests (.strings selectedInterests)

/-! ## Answers -/

/-- What the services answer: to a sign-in, to the creation of an account, to a
request for a document, and whether a write failed. -/
structure Service where
  signedIn : Except String User := .error ""
  created : Except String User := .error ""
  document : Option UserDocument := none
  error : Bool := false

namespace Service

def answer [Observers] (service : Service)
    (completion : Option String → Callback App AuthRequest α Unit) :
    AuthRequest → Callback App AuthRequest α Unit
  | .signIn email _ => login.onSignIn completion email service.signedIn
  | .loginDocument _ email => login.onDocument completion email service.document
  | .userData _ => updateUserData.onDocument service.document
  | .createUser firstName lastName email _ country =>
      signUpBasics.onCreated completion firstName lastName email country service.created
  | .setBasics _ firstName lastName email country =>
      signUpBasics.onSaved completion firstName lastName email country service.error
  | .mergeInterests _ _ => signUpInterests.onSaved completion service.error

/-- The authentication service signs the user in before it answers. -/
def currentUser (service : Service) (request : AuthRequest) (current : Option User) :
    Option User :=
  match request with
  | .signIn .. => service.signedIn.toOption.or current
  | .createUser .. => service.created.toOption.or current
  | _ => current

/-- Run an operation with the answers to its requests, of which there are at most two. -/
def exchange [Observers] (service : Service)
    (code : Callback App AuthRequest (Option String) Unit) :
    Callback App AuthRequest (Option String) Unit :=
  Callback.answered (service.answer Callback.complete)
    (Callback.answered (service.answer Callback.complete) code)

end Service

/-- The closure of a request with the completions of the screens, none of which touches the
stored profile. What it completes are the buttons of the interests screen that expand. -/
def closure [Observers] (service : Service) : AuthRequest → Callback App AuthRequest Unit Unit
  | .mergeInterests _ _ =>
      signUpInterests.onSaved SignUpInterestsViewController.onSignedUp service.error
  | request => service.answer (fun _ => pure ()) request

/-! ## What the closures do -/

theorem signOut_apply [Observers] (completion : Bool → Callback App ρ α Unit) (ok : Bool)
    (t : Trace App ρ α) :
    signOut completion ok t = completion ok (if ok then { t with store := { t.store with
      currentUser := none
      defaults := UserRepository.removeUserInfo t.store.defaults } } else t) := by
  cases ok with
  | false => rfl
  | true => simp only [signOut, if_true, Callback.bind_apply, Callback.write_apply,
      App.removeUserInfo_apply]

/-- What `login` makes of a document, where all its casts succeed. -/
structure Profile where
  firstname : String
  lastname : String
  country : Country
  interests : List String
deriving DecidableEq, Repr

def UserDocument.profile (document : UserDocument) : Option Profile :=
  match document.lastname.bind Value.asString, document.firstname.bind Value.asString,
    document.country.bind Value.asDictionary, document.interests.bind Value.asStrings with
  | some lastname, some firstname, some country, some interests =>
      some ⟨firstname, lastname, country, interests⟩
  | _, _, _, _ => none

def Profile.defaults (profile : Profile) (email : String) : Defaults
  | .firstname => some (.string profile.firstname)
  | .lastname => some (.string profile.lastname)
  | .country => some (.dictionary profile.country)
  | .interests => some (.strings profile.interests)
  | .email => some (.string email)
  | .isCountrySpecific => some (.bool true)
  | .resultLanguage => some (.string "en")

def Profile.entries (profile : Profile) (email : String) : List (Key × Value) :=
  [(.lastname, .string profile.lastname), (.firstname, .string profile.firstname),
    (.country, .dictionary profile.country), (.interests, .strings profile.interests),
    (.email, .string email), (.resultLanguage, .string "en"), (.isCountrySpecific, .bool true)]

/-- A complete document replaces the whole stored profile, if the observers get through it. -/
theorem login.onDocument_through [Observers] {document : UserDocument} {profile : Profile}
    (completion : Option String → Callback App AuthRequest α Unit) (email : String)
    (h : document.profile = some profile) (t : Trace App AuthRequest α)
    (hthrough : Observers.through (profile.entries email) t.store.defaults = true) :
    login.onDocument completion email (some document) t =
      completion none { t with store := { t.store with defaults := profile.defaults email } } := by
  unfold UserDocument.profile at h
  split at h
  · next lastname firstname country interests hl hf hc hi =>
      obtain rfl := Option.some.inj h
      simp only [Profile.entries, Observers.through, Bool.and_eq_true] at hthrough
      obtain ⟨hlastname, hfirstname, hcountry, hinterests, hemail, hlanguage, hspecific, -⟩ :=
        hthrough
      simp only [login.onDocument, App.store_apply, Callback.bind_apply, Callback.forced_apply, hl,
        hf, hc, hi, hlastname, hfirstname, hcountry, hinterests, hemail, hlanguage, hspecific,
        if_true]
      congr 3
      funext key
      cases key <;> rfl
  · cases h

/-- Otherwise the closure traps before it calls the completion; what was stored before stays
stored. -/
theorem login.onDocument_traps [Observers] {document : UserDocument}
    (completion : Option String → Callback App AuthRequest α Unit) (email : String)
    (t : Trace App AuthRequest α)
    (h : ∀ profile ∈ document.profile,
      Observers.through (profile.entries email) t.store.defaults = false) :
    App.Traps (login.onDocument completion email (some document)) t := by
  refine App.traps_forced fun lastname hl => App.traps_store fun hlastname => ?_
  refine App.traps_forced fun firstname hf => App.traps_store fun hfirstname => ?_
  refine App.traps_forced fun country hc => App.traps_store fun hcountry => ?_
  refine App.traps_forced fun interests hi => App.traps_store fun hinterests => ?_
  refine App.traps_store fun hemail => App.traps_store fun hlanguage => ?_
  refine App.traps_store fun hspecific => ?_
  rw [Option.mem_def] at hl hf hc hi
  have hthrough := h ⟨firstname, lastname, country, interests⟩
    (by simp [UserDocument.profile, hl, hf, hc, hi])
  simp only [Profile.entries, Observers.through, hlastname, hfirstname, hcountry, hinterests,
    hemail, hlanguage, hspecific] at hthrough
  cases hthrough

theorem login.onDocument_complete {document : UserDocument} {profile : Profile}
    (completion : Option String → Callback App AuthRequest α Unit) (email : String)
    (h : document.profile = some profile) (t : Trace App AuthRequest α) :
    login.onDocument completion email (some document) t =
      completion none { t with store := { t.store with defaults := profile.defaults email } } :=
  login.onDocument_through completion email h t (unobserved_through _ _)

theorem login.onDocument_incomplete {document : UserDocument}
    (completion : Option String → Callback App AuthRequest α Unit) (email : String)
    (h : document.profile = none) (t : Trace App AuthRequest α) :
    ∃ defaults, login.onDocument completion email (some document) t =
      (none, { t with store := { t.store with defaults := defaults } }) :=
  login.onDocument_traps completion email t (by simp [h])

/-- What `updateUserData` makes of a document: the names are stored as they are. -/
structure Refresh where
  firstname : Value
  lastname : Value
  email : String
  country : Country
  interests : List String
deriving DecidableEq, Repr

def UserDocument.refresh (document : UserDocument) (currentUser : Option User) : Option Refresh :=
  match document.firstname, document.lastname, currentUser.bind User.email,
    document.country.bind Value.asDictionary, document.interests.bind Value.asStrings with
  | some firstname, some lastname, some email, some country, some interests =>
      some ⟨firstname, lastname, email, country, interests⟩
  | _, _, _, _, _ => none

/-- The keys that `updateUserData` writes; it leaves the two settings alone. -/
def Refresh.defaults (refresh : Refresh) (defaults : Defaults) : Defaults
  | .firstname => some refresh.firstname
  | .lastname => some refresh.lastname
  | .email => some (.string refresh.email)
  | .country => some (.dictionary refresh.country)
  | .interests => some (.strings refresh.interests)
  | .isCountrySpecific => defaults .isCountrySpecific
  | .resultLanguage => defaults .resultLanguage

def Refresh.entries (refresh : Refresh) : List (Key × Value) :=
  [(.firstname, refresh.firstname), (.lastname, refresh.lastname),
    (.email, .string refresh.email), (.country, .dictionary refresh.country),
    (.interests, .strings refresh.interests)]

theorem updateUserData.onDocument_through [Observers] {document : UserDocument}
    {refresh : Refresh} (t : Trace App AuthRequest α)
    (h : document.refresh t.store.currentUser = some refresh)
    (hthrough : Observers.through refresh.entries t.store.defaults = true) :
    (updateUserData.onDocument (some document) : Callback App AuthRequest α Unit) t =
      (some (), { t with store := { t.store with
        defaults := refresh.defaults t.store.defaults } }) := by
  unfold UserDocument.refresh at h
  split at h
  · next firstname lastname email country interests hf hl he hc hi =>
      obtain rfl := Option.some.inj h
      obtain ⟨user, huser, hemail⟩ := Option.bind_eq_some_iff.mp he
      simp only [Refresh.entries, Observers.through, Bool.and_eq_true] at hthrough
      obtain ⟨hfirstname, hlastname, hemailed, hcountry, hinterests, -⟩ := hthrough
      simp only [updateUserData.onDocument, App.store_apply, App.forcedCurrentUser_apply,
        Callback.bind_apply, Callback.forced_apply, hf, hl, huser, hemail, hc, hi, hfirstname,
        hlastname, hemailed, hcountry, hinterests, if_true]
      congr 3
      funext key
      cases key <;> rfl
  · cases h

theorem updateUserData.onDocument_traps [Observers] {document : UserDocument}
    (t : Trace App AuthRequest α)
    (h : ∀ refresh ∈ document.refresh t.store.currentUser,
      Observers.through refresh.entries t.store.defaults = false) :
    App.Traps (updateUserData.onDocument (some document)) t := by
  refine App.traps_forced fun firstname hf => App.traps_store fun hfirstname => ?_
  refine App.traps_forced fun lastname hl => App.traps_store fun hlastname => ?_
  refine App.traps_forcedCurrentUser fun user huser => ?_
  refine App.traps_forced fun email he => App.traps_store fun hemail => ?_
  refine App.traps_forced fun country hc => App.traps_store fun hcountry => ?_
  refine App.traps_forced fun interests hi => ?_
  have hcurrent : t.store.currentUser = some user := huser
  rw [Option.mem_def] at hf hl he hc hi
  have hthrough := h ⟨firstname, lastname, email, country, interests⟩
    (by simp [UserDocument.refresh, hf, hl, hcurrent, he, hc, hi])
  simp only [Refresh.entries, Observers.through, hfirstname, hlastname, hemail, hcountry,
    Bool.true_and, Bool.and_true] at hthrough
  unfold App.Traps
  rw [App.store_apply, hthrough]
  exact ⟨_, rfl⟩

theorem updateUserData.onDocument_complete {document : UserDocument} {refresh : Refresh}
    (t : Trace App AuthRequest α) (h : document.refresh t.store.currentUser = some refresh) :
    (updateUserData.onDocument (some document) : Callback App AuthRequest α Unit) t =
      (some (), { t with store := { t.store with
        defaults := refresh.defaults t.store.defaults } }) :=
  updateUserData.onDocument_through t h (unobserved_through _ _)

theorem updateUserData.onDocument_incomplete {document : UserDocument}
    (t : Trace App AuthRequest α) (h : document.refresh t.store.currentUser = none) :
    ∃ defaults,
      (updateUserData.onDocument (some document) : Callback App AuthRequest α Unit) t =
        (none, { t with store := { t.store with defaults := defaults } }) :=
  updateUserData.onDocument_traps t (by simp [h])

def signUpBasics.entries (firstName lastName email : String) (country : Country) :
    List (Key × Value) :=
  [(.firstname, .string firstName), (.lastname, .string lastName),
    (.country, .dictionary country), (.email, .string email), (.resultLanguage, .string "en"),
    (.isCountrySpecific, .bool true)]

section Basics

variable [Observers] (completion : Option String → Callback App AuthRequest α Unit)
  {firstName lastName email : String} {country : Country} {t : Trace App AuthRequest α}

theorem signUpBasics.onSaved_through
    (h : Observers.through (entries firstName lastName email country) t.store.defaults = true) :
    onSaved completion firstName lastName email country false t =
      completion none { t with store := { t.store with
        defaults := UserRepository.storeAll (entries firstName lastName email country)
          t.store.defaults } } := by
  simp only [entries, Observers.through, Bool.and_eq_true] at h
  obtain ⟨hfirstname, hlastname, hcountry, hemail, hlanguage, hspecific, -⟩ := h
  simp only [onSaved, App.store_apply, Callback.bind_apply, Bool.false_eq_true, if_false,
    hfirstname, hlastname, hcountry, hemail, hlanguage, hspecific, if_true]
  rfl

theorem signUpBasics.onSaved_traps
    (h : Observers.through (entries firstName lastName email country) t.store.defaults = false) :
    App.Traps (onSaved completion firstName lastName email country false) t := by
  refine App.traps_store fun hfirstname => App.traps_store fun hlastname => ?_
  refine App.traps_store fun hcountry => App.traps_store fun hemail => ?_
  refine App.traps_store fun hlanguage => App.traps_store fun hspecific => ?_
  simp only [entries, Observers.through, hfirstname, hlastname, hcountry, hemail, hlanguage,
    hspecific] at h
  cases h

end Basics

/-! ## What the operations do -/

namespace Service

variable [Observers] {service : Service} {app : App}

/-- After its first request an operation is what is left of it: that request's
closure and its answer. -/
theorem exchange_sent {code : Callback App AuthRequest (Option String) Unit}
    (request : AuthRequest) (h : code ⟨app, [], []⟩ = (some (), ⟨app, [request], []⟩)) :
    service.exchange code ⟨app, [], []⟩ =
      Callback.answered (service.answer Callback.complete)
        (service.answer Callback.complete request) ⟨app, [], []⟩ :=
  Callback.answered_congr
    (Callback.answered_of_sent (t := ⟨app, [], []⟩) (u := ⟨app, [request], []⟩) h rfl)

theorem updateUserData_exchange {user : User} (huser : app.currentUser = some user) :
    service.exchange updateUserData ⟨app, [], []⟩ =
      Callback.answered (service.answer Callback.complete)
        (updateUserData.onDocument service.document) ⟨app, [], []⟩ := by
  apply exchange_sent (.userData user.uid)
  simp [updateUserData, App.forcedCurrentUser, huser]

theorem login_exchange (email password : String) :
    service.exchange (login email password) ⟨app, [], []⟩ =
      match service.signedIn with
      | .error message => (some (), ⟨app, [], [some message]⟩)
      | .ok _ => login.onDocument Callback.complete email service.document ⟨app, [], []⟩ := by
  rw [exchange_sent (.signIn email password) rfl, answer]
  cases service.signedIn with
  | error message =>
      rw [Callback.answered_of_silent (u := ⟨app, [], [some message]⟩) rfl rfl]
  | ok user =>
      rw [Callback.answered_of_sent (r := .loginDocument user.uid email)
        (u := ⟨app, [.loginDocument user.uid email], []⟩) rfl rfl, answer]

end Service

end NewsFlash.Models.Authentication
