import NewsFlash.Models.Tabs

/-!
# Which operations answer exactly once

A screen stops its spinner in the completion that it gives to an operation. Each
operation is run here with the answers to all its requests, under the observers of
the loaded tabs; `Answers` says, for every operation, when it calls its completion
exactly once and does not trap.
-/

namespace NewsFlash.Operations

open NewsFlash.Library NewsFlash.Models NewsFlash.Models.Networking
  NewsFlash.Models.Authentication

/-! ## Running an operation with its answers -/

/-- The state of the process and the answers of the services. `parses` is
`URL(string:)`; a list of documents is `none` where the query failed. -/
structure Environment where
  app : App
  tabs : Tabs := {}
  parses : String → Bool
  reply : DataReply
  addError : Bool
  matching : Option (List DocumentId)
  ordered : Option (List SavedFields)
  service : Service
  signsOut : Bool

inductive Operation where
  | getNewsByCategory (category : String) (includeCountry : Bool)
  | getLocalTopNews
  | getAllNews (page : Nat)
  | getSearchResults (page : Nat) (q : String)
  | saveArticle (article : Article)
  | unsaveArticle (url : String)
  | getSavedNews
  | login (email password : String)
  | signOut
  | signUpBasics (firstName lastName email password : String) (country : Country)
  | signUpInterests (interests : List String)

namespace Environment

variable (env : Environment)

def news {ρ : Type} (code : Callback App ρ (Option (List Article)) Unit) :
    Callback App ρ (Option (List Article)) Unit :=
  Callback.answered (fun _ => onData Callback.complete env.reply) code

/-- A request to the saved articles and its answer; nobody waits for a delete. -/
def saved {α : Type} (complete : Bool → Callback App (SavedRequest Unit) α Unit)
    (completeNews : Option (List Article) → Callback App (SavedRequest Unit) α Unit)
    (code : Callback App (SavedRequest Unit) α Unit) : Callback App (SavedRequest Unit) α Unit :=
  Callback.answered (fun request => match request with
    | .addDocument _ article _ => saveArticle.onAdded article complete env.addError
    | .whereUrl uid url _ => unsaveArticle.onDocuments uid url complete env.matching
    | .orderedBySavedAt _ => getSavedNews.onDocuments completeNews env.ordered
    | .getDocuments _ => updateSavedUrls.onDocuments env.ordered
    | .delete .. => pure ()) code

@[reducible] def observers : Observers := env.tabs.observers env.parses

def account (code : Callback App AuthRequest (Option String) Unit) :
    Callback App AuthRequest (Option String) Unit :=
  letI := env.observers
  env.service.exchange code

end Environment

def Operation.AnswersOnce (env : Environment) : Operation → Prop
  | getNewsByCategory category includeCountry => Callback.AnswersOnce
      ((env.news (Networking.getNewsByCategory env.parses category includeCountry)).exec env.app)
  | getLocalTopNews => Callback.AnswersOnce
      ((env.news (Networking.getLocalTopNews env.parses)).exec env.app)
  | getAllNews page => Callback.AnswersOnce
      ((env.news (Networking.getAllNews env.parses page)).exec env.app)
  | getSearchResults page q => Callback.AnswersOnce
      ((env.news (Networking.getSearchResults env.parses page q)).exec env.app)
  | saveArticle article => Callback.AnswersOnce
      ((env.saved Callback.complete (fun _ => pure ())
        (Networking.saveArticle article ())).exec env.app)
  | unsaveArticle url => Callback.AnswersOnce
      ((env.saved Callback.complete (fun _ => pure ())
        (Networking.unsaveArticle url ())).exec env.app)
  | getSavedNews => Callback.AnswersOnce
      ((env.saved (fun _ => pure ()) Callback.complete Networking.getSavedNews).exec env.app)
  | login email password => Callback.AnswersOnce
      ((env.account (Authentication.login email password)).exec env.app)
  | signOut =>
      letI := env.observers
      Callback.AnswersOnce ((Authentication.signOut Callback.complete env.signsOut :
        Callback App AuthRequest Bool Unit).exec env.app)
  | signUpBasics firstName lastName email password country => Callback.AnswersOnce
      ((env.account (Authentication.signUpBasics firstName lastName email password country)).exec
        env.app)
  | signUpInterests interests => Callback.AnswersOnce
      ((env.account (Authentication.signUpInterests interests)).exec env.app)

/-! ## When an operation answers -/

def countryCode (app : App) : String :=
  (((UserRepository.fetch .country app.defaults).bind Value.asDictionary).bind short).getD "bg"

def resultLanguage (app : App) : String :=
  ((UserRepository.fetch .resultLanguage app.defaults).bind Value.asString).getD ""

def interests (app : App) : Option (List String) :=
  (UserRepository.fetch .interests app.defaults).bind Value.asStrings

/-- The URL of a news request parses, and `getAllNews` finds interests; the saved
articles are asked for by a signed-in user, and every fetched document has a url;
a login is refused or finds a complete document, which it can store before the tabs;
the basics of a sign-up are refused or can be stored before them. -/
def Operation.Answers (env : Environment) : Operation → Prop
  | getNewsByCategory category _ => env.parses (CategoryRequest.url ⟨category⟩) = true
  | getLocalTopNews => env.parses (TopNewsRequest.url ⟨countryCode env.app⟩) = true
  | getAllNews page => ∃ stored, interests env.app = some stored ∧
      env.parses (AllNewsRequest.url ⟨stored, resultLanguage env.app, page⟩) = true
  | getSearchResults page q =>
      env.parses (SearchRequest.url ⟨resultLanguage env.app, page, q⟩) = true
  | saveArticle _ | unsaveArticle _ | signUpInterests _ => env.app.currentUser.isSome
  | getSavedNews => env.app.currentUser.isSome ∧
      ∀ documents ∈ env.ordered, ∀ document ∈ documents, document.url.isSome
  | login _ _ => ∀ user, env.service.signedIn = .ok user →
      ∃ document profile, env.service.document = some document ∧
        document.profile = some profile ∧
        env.tabs.AcceptLogin env.parses env.app.defaults profile
  | signUpBasics _ _ _ _ country => ∀ user, env.service.created = .ok user →
      env.service.error = false → env.tabs.AcceptBasics env.parses env.app.defaults country
  | signOut => True

/-! ## The news operations -/

section News

variable {ρ : Type} {env : Environment} {code : Callback App ρ (Option (List Article)) Unit}

theorem news_sent (request : ρ)
    (h : code ⟨env.app, [], []⟩ = (some (), ⟨env.app, [request], []⟩)) :
    Callback.AnswersOnce ((env.news code).exec env.app) := by
  rw [Environment.news, Callback.exec_apply, Callback.answered_of_sent h rfl, onData_eq]
  exact ⟨rfl, rfl⟩

theorem news_silent (h : code ⟨env.app, [], []⟩ = (some (), ⟨env.app, [], []⟩)) :
    ¬ Callback.AnswersOnce ((env.news code).exec env.app) := by
  rw [Environment.news, Callback.exec_apply, Callback.answered_of_silent h rfl]
  rintro ⟨-, hlength⟩
  cases hlength

theorem news_forced (url : String) (request : ρ)
    (h : code ⟨env.app, [], []⟩ =
      (if env.parses url = true then Callback.send request else Callback.trap) ⟨env.app, [], []⟩) :
    Callback.AnswersOnce ((env.news code).exec env.app) ↔ env.parses url = true := by
  cases hparses : env.parses url with
  | true =>
      rw [hparses] at h
      exact iff_of_true (news_sent request h) rfl
  | false =>
      rw [hparses] at h
      refine iff_of_false ?_ Bool.false_ne_true
      rintro ⟨hsome, -⟩
      rw [Environment.news, Callback.exec_apply,
        Callback.answered_of_trap (congrArg Prod.fst h)] at hsome
      cases hsome

theorem getNewsByCategory_once (category : String) (includeCountry : Bool) :
    (Operation.getNewsByCategory category includeCountry).AnswersOnce env ↔
      (Operation.getNewsByCategory category includeCountry).Answers env := by
  change Callback.AnswersOnce _ ↔ env.parses (CategoryRequest.url ⟨category⟩) = true
  cases hparses : env.parses (CategoryRequest.url ⟨category⟩) with
  | true =>
      refine iff_of_true (news_sent ⟨category⟩ ?_) rfl
      rw [getNewsByCategory_apply, if_pos hparses]
      rfl
  | false =>
      refine iff_of_false (news_silent ?_) Bool.false_ne_true
      rw [getNewsByCategory_apply, hparses, if_neg Bool.false_ne_true]

theorem getLocalTopNews_once :
    Operation.getLocalTopNews.AnswersOnce env ↔ Operation.getLocalTopNews.Answers env :=
  news_forced _ ⟨countryCode env.app⟩ rfl

theorem getAllNews_once (page : Nat) :
    (Operation.getAllNews page).AnswersOnce env ↔ (Operation.getAllNews page).Answers env := by
  change Callback.AnswersOnce _ ↔ ∃ stored, interests env.app = some stored ∧
    env.parses (AllNewsRequest.url ⟨stored, resultLanguage env.app, page⟩) = true
  cases hinterests : interests env.app with
  | none =>
      have hstored : storedInterests env.app = none := hinterests
      refine iff_of_false (news_silent ?_) (by simp)
      simp only [getAllNews_apply, hstored]
  | some stored =>
      have hstored : storedInterests env.app = some stored := hinterests
      rw [news_forced (AllNewsRequest.url ⟨stored, resultLanguage env.app, page⟩)
        ⟨stored, resultLanguage env.app, page⟩]
      · simp
      · have hlanguage : resultLanguage env.app = preferredLanguage env.app := rfl
        simp only [getAllNews_apply, hstored, hlanguage]
        split <;> rfl

theorem getSearchResults_once (page : Nat) (q : String) :
    (Operation.getSearchResults page q).AnswersOnce env ↔
      (Operation.getSearchResults page q).Answers env :=
  news_forced _ ⟨resultLanguage env.app, page, q⟩ rfl

end News

/-! ## The operations of a signed-in user -/

section SignedIn

variable {ρ α : Type} {answer : ρ → Callback App ρ α Unit} {app : App}

theorem forced_once (request : User → ρ) :
    Callback.AnswersOnce ((Callback.answered answer (do
      let currentUser ← App.forcedCurrentUser
      Callback.send (request currentUser))).exec app) ↔
    ∃ user, app.currentUser = some user ∧
      Callback.AnswersOnce (answer (request user) ⟨app, [], []⟩) := by
  rw [Callback.exec_apply]
  cases huser : app.currentUser with
  | none =>
      refine iff_of_false ?_ (by simp)
      rintro ⟨hsome, -⟩
      rw [Callback.answered_of_trap] at hsome
      · cases hsome
      · simp [App.forcedCurrentUser_apply, huser]
  | some user =>
      rw [Callback.answered_of_sent (r := request user) (u := ⟨app, [request user], []⟩) _ rfl]
      · simp
      · simp [App.forcedCurrentUser_apply, huser]

theorem exists_user {P : User → Prop} (hP : ∀ user, P user) :
    (∃ user, app.currentUser = some user ∧ P user) ↔ app.currentUser.isSome := by
  rw [Option.isSome_iff_exists]
  exact exists_congr fun user => and_iff_left (hP user)

end SignedIn

section Saved

variable {env : Environment}

theorem saveArticle_once (article : Article) :
    (Operation.saveArticle article).AnswersOnce env ↔
      (Operation.saveArticle article).Answers env := by
  change Callback.AnswersOnce ((env.saved _ _ _).exec env.app) ↔ env.app.currentUser.isSome
  rw [Environment.saved, Networking.saveArticle,
    forced_once fun user => SavedRequest.addDocument user.uid article ()]
  refine exists_user fun user => ?_
  cases env.addError <;> simp [saveArticle.onAdded, Callback.AnswersOnce, App.modifyNews]

theorem unsaveArticle_once (url : String) :
    (Operation.unsaveArticle url).AnswersOnce env ↔ (Operation.unsaveArticle url).Answers env := by
  change Callback.AnswersOnce ((env.saved _ _ _).exec env.app) ↔ env.app.currentUser.isSome
  rw [Environment.saved, Networking.unsaveArticle,
    forced_once fun user => SavedRequest.whereUrl user.uid url ()]
  refine exists_user fun user => ?_
  cases hmatching : env.matching with
  | none => simp [unsaveArticle.onDocuments, Callback.AnswersOnce]
  | some documents => simp [unsaveArticle.onDocuments_matched, Callback.AnswersOnce]

theorem forM_appendSavedUrl_ends {ρ α : Type} (documents : List SavedFields)
    (t : Trace App ρ α) :
    (((forM documents appendSavedUrl : Callback App ρ α Unit) t).1.isSome ↔
      ∀ document ∈ documents, document.url.isSome) ∧
    ((forM documents appendSavedUrl : Callback App ρ α Unit) t).2.completed = t.completed := by
  rw [forM_appendSavedUrl_apply]
  refine ⟨?_, rfl⟩
  rw [← List.all_eq_true]
  cases documents.all (·.url.isSome) <;> simp

theorem onSavedDocuments_once {ρ : Type} (documents : List SavedFields) (app : App) :
    Callback.AnswersOnce
      ((getSavedNews.onDocuments Callback.complete (some documents) :
        Callback App ρ (Option (List Article)) Unit) ⟨app, [], []⟩) ↔
      ∀ document ∈ documents, document.url.isSome := by
  rw [getSavedNews.onDocuments, App.modifyNews, Callback.bind_apply, Callback.write_apply]
  obtain ⟨hends, hcompleted⟩ := forM_appendSavedUrl_ends documents
    (⟨{ app with news := { app.news with savedUrls := [] } }, [], []⟩ :
      Trace App ρ (Option (List Article)))
  simp only [Callback.bind_apply]
  rcases hloop : (forM documents appendSavedUrl : Callback App ρ (Option (List Article)) Unit)
    ⟨{ app with news := { app.news with savedUrls := [] } }, [], []⟩ with ⟨_ | _, t'⟩
  · rw [hloop] at hends
    refine iff_of_false ?_ fun hall => ?_
    · rintro ⟨hsome, -⟩
      cases hsome
    · have hsome := hends.mpr hall
      cases hsome
  · rw [hloop] at hends hcompleted
    refine iff_of_true ⟨rfl, ?_⟩ (hends.mp rfl)
    have hnil : t'.completed = [] := hcompleted
    simp [hnil]

theorem getSavedNews_once :
    Operation.getSavedNews.AnswersOnce env ↔ Operation.getSavedNews.Answers env := by
  change Callback.AnswersOnce ((env.saved _ _ _).exec env.app) ↔ env.app.currentUser.isSome ∧
    ∀ documents ∈ env.ordered, ∀ document ∈ documents, document.url.isSome
  rw [Environment.saved, Callback.exec_apply]
  cases huser : env.app.currentUser with
  | none =>
      refine iff_of_false ?_ (by simp)
      rintro ⟨-, hlength⟩
      rw [Callback.answered_of_silent (u := ⟨env.app, [], []⟩) _ rfl] at hlength
      · cases hlength
      · simp [Networking.getSavedNews, huser]
  | some user =>
      rw [Callback.answered_of_sent (r := SavedRequest.orderedBySavedAt user.uid)
        (u := ⟨env.app, [.orderedBySavedAt user.uid], []⟩) _ rfl]
      · cases hordered : env.ordered with
        | none => simp [getSavedNews.onDocuments, Callback.AnswersOnce]
        | some documents => simpa using onSavedDocuments_once documents env.app
      · simp [Networking.getSavedNews, huser]

end Saved

/-! ## The authentication operations -/

section Account

variable {env : Environment}

theorem not_answersOnce_traps {α : Type} {code : Callback App AuthRequest α Unit}
    {t : Trace App AuthRequest α} (h : App.Traps code t) : ¬ Callback.AnswersOnce (code t) := by
  obtain ⟨_, htrap⟩ := h
  rintro ⟨hsome, -⟩
  rw [htrap] at hsome
  cases hsome

theorem login_once (email password : String) :
    (Operation.login email password).AnswersOnce env ↔
      (Operation.login email password).Answers env := by
  let _ := env.observers
  change Callback.AnswersOnce (env.service.exchange (Authentication.login email password) _) ↔
    ∀ user, env.service.signedIn = .ok user → _
  rw [Service.login_exchange]
  cases env.service.signedIn with
  | error message => exact iff_of_true ⟨rfl, rfl⟩ (by simp)
  | ok user =>
      simp only [Except.ok.injEq, forall_eq']
      cases env.service.document with
      | none =>
          refine iff_of_false ?_ (by simp)
          rintro ⟨-, hlength⟩
          cases hlength
      | some document =>
          simp only [Option.some.injEq, ↓existsAndEq, true_and]
          cases hprofile : document.profile with
          | none =>
              refine iff_of_false (not_answersOnce_traps ?_) (by simp)
              exact login.onDocument_traps _ email _ (by simp [hprofile])
          | some profile =>
              simp only [Option.some.injEq, exists_eq_left']
              rw [← Tabs.through_login env.parses env.tabs profile email env.app.defaults]
              cases hthrough : Observers.through (profile.entries email) env.app.defaults with
              | false =>
                  refine iff_of_false (not_answersOnce_traps ?_) Bool.false_ne_true
                  refine login.onDocument_traps _ email _ ?_
                  simp only [hprofile, Option.mem_some_iff, forall_eq']
                  exact hthrough
              | true =>
                  have hends := login.onDocument_through Callback.complete email hprofile
                    ⟨env.app, [], []⟩ hthrough
                  rw [hends]
                  exact iff_of_true ⟨rfl, rfl⟩ rfl

theorem signUpBasics_once (firstName lastName email password : String) (country : Country) :
    (Operation.signUpBasics firstName lastName email password country).AnswersOnce env ↔
      (Operation.signUpBasics firstName lastName email password country).Answers env := by
  let _ := env.observers
  change Callback.AnswersOnce ((env.account _).exec env.app) ↔
    ∀ user, env.service.created = .ok user → env.service.error = false → _
  rw [Callback.exec_apply, Environment.account,
    Service.exchange_sent (.createUser firstName lastName email password country) rfl,
    Service.answer]
  cases env.service.created with
  | error message =>
      rw [Callback.answered_of_silent (u := ⟨env.app, [], [some message]⟩) rfl rfl]
      exact iff_of_true ⟨rfl, rfl⟩ (by simp)
  | ok user =>
      rw [Callback.answered_of_sent (r := .setBasics user.uid firstName lastName email country)
        (u := ⟨env.app, [.setBasics user.uid firstName lastName email country], []⟩) rfl rfl,
        Service.answer]
      simp only [Except.ok.injEq, forall_eq']
      cases env.service.error with
      | true => exact iff_of_true ⟨rfl, rfl⟩ (by simp)
      | false =>
          rw [← Tabs.through_basics env.parses env.tabs firstName lastName email country
            env.app.defaults, forall_prop_of_true rfl]
          cases hthrough : Observers.through
              (signUpBasics.entries firstName lastName email country) env.app.defaults with
          | false =>
              refine iff_of_false (not_answersOnce_traps ?_) Bool.false_ne_true
              exact signUpBasics.onSaved_traps _ hthrough
          | true =>
              have hends := signUpBasics.onSaved_through Callback.complete
                (t := ⟨env.app, [], []⟩) hthrough
              rw [hends]
              exact iff_of_true ⟨rfl, rfl⟩ rfl

theorem signUpInterests_once (interests : List String) :
    (Operation.signUpInterests interests).AnswersOnce env ↔
      (Operation.signUpInterests interests).Answers env := by
  let _ := env.observers
  change Callback.AnswersOnce ((env.account _).exec env.app) ↔ env.app.currentUser.isSome
  cases huser : env.app.currentUser with
  | none =>
      refine iff_of_false ?_ (by simp)
      rintro ⟨hsome, -⟩
      rw [Callback.exec_apply, Environment.account, Service.exchange,
        Callback.answered_of_trap] at hsome
      · cases hsome
      · rw [Callback.answered_of_trap]
        simp [Authentication.signUpInterests, App.forcedCurrentUser_apply, huser]
  | some user =>
      refine iff_of_true ?_ rfl
      rw [Callback.exec_apply, Environment.account,
        Service.exchange_sent (.mergeInterests user.uid interests), Service.answer]
      · cases env.service.error with
        | true =>
            rw [Callback.answered_of_silent
              (u := ⟨env.app, [], [some "Interests could not be saved."]⟩) rfl rfl]
            exact ⟨rfl, rfl⟩
        | false =>
            rw [Callback.answered_of_silent (u := ⟨env.app, [], [none]⟩) rfl rfl]
            exact ⟨rfl, rfl⟩
      · simp [Authentication.signUpInterests, App.forcedCurrentUser_apply, huser]

theorem signOut_once : Operation.signOut.AnswersOnce env := by
  let _ := env.observers
  change Callback.AnswersOnce (Authentication.signOut Callback.complete env.signsOut
    (⟨env.app, [], []⟩ : Trace App AuthRequest Bool))
  rw [signOut_apply]
  cases env.signsOut <;> exact ⟨rfl, rfl⟩

end Account

/-! ## All operations -/

/-- **One answer.** For every stored profile, session and combination of answers of
the services, an operation ends and calls its completion exactly once exactly where
`Answers` says so. -/
theorem answersOnce_iff (env : Environment) (operation : Operation) :
    operation.AnswersOnce env ↔ operation.Answers env := by
  cases operation with
  | getNewsByCategory category includeCountry =>
      exact getNewsByCategory_once category includeCountry
  | getLocalTopNews => exact getLocalTopNews_once
  | getAllNews page => exact getAllNews_once page
  | getSearchResults page q => exact getSearchResults_once page q
  | saveArticle article => exact saveArticle_once article
  | unsaveArticle url => exact unsaveArticle_once url
  | getSavedNews => exact getSavedNews_once
  | login email password => exact login_once email password
  | signOut => exact iff_of_true signOut_once trivial
  | signUpBasics firstName lastName email password country =>
      exact signUpBasics_once firstName lastName email password country
  | signUpInterests interests => exact signUpInterests_once interests

/-- The user's document could not be fetched after a successful sign-in. -/
def documentMissing : Environment where
  app := {}
  parses := fun _ => true
  reply := ⟨none, true⟩
  addError := false
  matching := none
  ordered := none
  service := { signedIn := .ok ⟨"reader", some "reader@example.com"⟩ }
  signsOut := true

theorem not_answersOnce_documentMissing :
    ¬ ∀ (env : Environment) (operation : Operation), operation.AnswersOnce env := by
  intro h
  have hlogin := h documentMissing (.login "reader@example.com" "secret")
  cases hlogin.2

end NewsFlash.Operations
