import NewsFlash.Models.App
import NewsFlash.Models.Text

/-!
# The network operations

Each operation is the code up to its request; the closure that answers the
request is a definition of its own, named after the operation. A closure gets
the completion of the operation as an argument, as in the source.
-/

namespace NewsFlash.Models.Networking

open NewsFlash.Library

variable {ρ α κ : Type}

/-! ## The news service -/

/-- What `JSONDecoder` makes of the bytes of a response. -/
inductive Body where
  | articles (articles : List Article)
  | malformed
deriving DecidableEq, Repr

/-- The arguments `(data, _, error)` of a data task's closure. -/
structure DataReply where
  data : Option Body
  error : Bool
deriving DecidableEq, Repr

/-- The closure that all four news requests share. -/
def onData (completion : Option (List Article) → Callback App ρ α Unit)
    (reply : DataReply) : Callback App ρ α Unit :=
  match reply.data with
  | none => completion none
  | some body =>
      if reply.error then completion none
      else match body with
        | .articles articles => completion (some articles)
        | .malformed => completion none

def DataReply.articles (reply : DataReply) : Option (List Article) :=
  match reply.data, reply.error with
  | some (.articles articles), false => some articles
  | _, _ => none

theorem onData_eq (completion : Option (List Article) → Callback App ρ α Unit)
    (reply : DataReply) : onData completion reply = completion reply.articles := by
  obtain ⟨_ | _ | _, _ | _⟩ := reply <;> rfl

def short (country : List (String × String)) : Option String := country.lookup "short"

structure CategoryRequest where
  category : String
deriving DecidableEq, Repr

def CategoryRequest.url (request : CategoryRequest) : String :=
  "https://newsapi.org/v2/top-headlines?category=" ++ request.category

structure TopNewsRequest where
  country : String
deriving DecidableEq, Repr

def TopNewsRequest.url (request : TopNewsRequest) : String :=
  "https://newsapi.org/v2/top-headlines?country=" ++ request.country

structure AllNewsRequest where
  interests : List String
  language : String
  page : Nat
deriving DecidableEq, Repr

def joinInterests : List String → String
  | [] => ""
  | [interest] => interest
  | interest :: rest => interest ++ "%20OR%20" ++ joinInterests rest

def AllNewsRequest.url (request : AllNewsRequest) : String :=
  "https://newsapi.org/v2/everything?sortBy=publishedAt&q=" ++ joinInterests request.interests ++
    "&language=" ++ request.language ++ "&page=" ++ toString request.page

structure SearchRequest where
  language : String
  page : Nat
  q : String
deriving DecidableEq, Repr

/-- `CharacterSet.urlHostAllowed` -/
def urlHostAllowed (c : Char) : Bool :=
  c.isAlphanum || "-._~!$&'()*+,;=:[]".toList.contains c

def hexDigit (n : Nat) : Char := "0123456789ABCDEF".toList.getD n '0'

def percentEncodeByte (b : UInt8) : List Char :=
  ['%', hexDigit (b.toNat / 16), hexDigit (b.toNat % 16)]

/-- `addingPercentEncoding(withAllowedCharacters: .urlHostAllowed)` -/
def addingPercentEncoding (q : String) : String :=
  String.ofList (q.toList.flatMap fun c =>
    if urlHostAllowed c then [c] else (String.utf8EncodeChar c).flatMap percentEncodeByte)

def SearchRequest.url (request : SearchRequest) : String :=
  "https://newsapi.org/v2/everything?language=" ++ request.language ++
    "&sortBy=publishedAt&page=" ++ toString request.page ++
    "&qInTitle=" ++ addingPercentEncoding request.q

section NewsService

/-! `parses` is `URL(string:)`: it tells which strings Foundation takes for a URL. -/

variable (parses : String → Bool)

def getNewsByCategory (category : String) (includeCountry : Bool) :
    Callback App CategoryRequest α Unit := do
  let request : CategoryRequest := ⟨category⟩
  if parses request.url then
    -- The country is appended to the string after `url` was built from it, so
    -- the request that is sent does not carry it.
    if includeCountry then
      let country := (← App.fetch .country).bind Value.asDictionary
      let _urlString := country.map fun c => request.url ++ "&country=" ++ (short c).getD ""
      Callback.send request
    else
      Callback.send request

def getLocalTopNews : Callback App TopNewsRequest α Unit := do
  let countryDictionary := (← App.fetch .country).bind Value.asDictionary
  let countryCode := countryDictionary.bind short
  let request : TopNewsRequest := ⟨countryCode.getD "bg"⟩
  if parses request.url then Callback.send request else Callback.trap

def getAllNews (page : Nat) : Callback App AllNewsRequest α Unit := do
  match (← App.fetch .interests).bind Value.asStrings with
  | none => return
  | some interests =>
      let preferredLanguage := (← App.fetch .resultLanguage).bind Value.asString
      let request : AllNewsRequest := ⟨interests, preferredLanguage.getD "", page⟩
      if parses request.url then Callback.send request else Callback.trap

def getSearchResults (page : Nat) (q : String) : Callback App SearchRequest α Unit := do
  let language := (← App.fetch .resultLanguage).bind Value.asString
  let request : SearchRequest := ⟨language.getD "", page, q⟩
  if parses request.url then Callback.send request else Callback.trap

def preferredLanguage (app : App) : String :=
  ((UserRepository.fetch .resultLanguage app.defaults).bind Value.asString).getD ""

def requestedCountry (app : App) : String :=
  (((UserRepository.fetch .country app.defaults).bind Value.asDictionary).bind short).getD "bg"

def storedInterests (app : App) : Option (List String) :=
  (UserRepository.fetch .interests app.defaults).bind Value.asStrings

/-- The stored country makes no difference to the request. -/
theorem getNewsByCategory_apply (category : String) (includeCountry : Bool)
    (t : Trace App CategoryRequest α) :
    getNewsByCategory parses category includeCountry t =
      (some (), if parses (CategoryRequest.url ⟨category⟩) then
        { t with issued := t.issued ++ [⟨category⟩] } else t) := by
  cases hparses : parses (CategoryRequest.url ⟨category⟩) <;> cases includeCountry <;>
    simp [getNewsByCategory, hparses, App.fetch]

theorem getLocalTopNews_apply (t : Trace App TopNewsRequest α) :
    getLocalTopNews parses t =
      if parses (TopNewsRequest.url ⟨requestedCountry t.store⟩) then
        (some (), { t with issued := t.issued ++ [⟨requestedCountry t.store⟩] })
      else (none, t) := by
  change (if parses (TopNewsRequest.url ⟨requestedCountry t.store⟩) then
    Callback.send ⟨requestedCountry t.store⟩ else Callback.trap :
      Callback App TopNewsRequest α Unit) t = _
  split <;> rfl

theorem getAllNews_apply (page : Nat) (t : Trace App AllNewsRequest α) :
    getAllNews parses page t = match storedInterests t.store with
      | none => (some (), t)
      | some interests =>
          if parses (AllNewsRequest.url ⟨interests, preferredLanguage t.store, page⟩) then
            (some (), { t with
              issued := t.issued ++ [⟨interests, preferredLanguage t.store, page⟩] })
          else (none, t) := by
  cases hinterests : storedInterests t.store with
  | none =>
      unfold storedInterests at hinterests
      simp [getAllNews, App.fetch, hinterests]
  | some interests =>
      unfold storedInterests at hinterests
      cases hparses : parses (AllNewsRequest.url ⟨interests, preferredLanguage t.store, page⟩) <;>
        unfold preferredLanguage at hparses <;>
        simp [getAllNews, App.fetch, hinterests, hparses, preferredLanguage]

theorem getSearchResults_apply (page : Nat) (q : String) (t : Trace App SearchRequest α) :
    getSearchResults parses page q t =
      if parses (SearchRequest.url ⟨preferredLanguage t.store, page, q⟩) then
        (some (), { t with issued := t.issued ++ [⟨preferredLanguage t.store, page, q⟩] })
      else (none, t) := by
  cases hparses : parses (SearchRequest.url ⟨preferredLanguage t.store, page, q⟩) <;>
    unfold preferredLanguage at hparses <;>
    simp [getSearchResults, App.fetch, hparses, preferredLanguage]

end NewsService

/-! ## The saved articles of an account -/

abbrev DocumentId := Nat

structure SavedData where
  source : String
  title : String
  description : String
  url : String
  urlToImage : String
deriving DecidableEq, Repr

/-- A document of `users/<uid>/saved`; `savedAt` is the server's time stamp. -/
structure SavedDocument where
  id : DocumentId
  data : SavedData
  savedAt : Nat
deriving DecidableEq, Repr

/-- The fields of a document as the `as? String` casts of a reader yield them. -/
structure SavedFields where
  source : Option String
  title : Option String
  description : Option String
  url : Option String
  urlToImage : Option String
deriving DecidableEq, Repr

def SavedData.fields (data : SavedData) : SavedFields :=
  ⟨some data.source, some data.title, some data.description, some data.url, some data.urlToImage⟩

def SavedFields.article (fields : SavedFields) : Article where
  source := some ⟨none, fields.source⟩
  title := fields.title
  description := fields.description
  url := fields.url
  urlToImage := fields.urlToImage

/-- A request to `users/<uid>/saved` with what its closure captures; `κ` stands
for the completion of the caller. -/
inductive SavedRequest (κ : Type) where
  | addDocument (uid : Uid) (article : Article) (completion : κ)
  | whereUrl (uid : Uid) (url : String) (completion : κ)
  | orderedBySavedAt (uid : Uid)
  | getDocuments (uid : Uid)
  | delete (uid : Uid) (document : DocumentId)
deriving DecidableEq, Repr

def saveArticle.data (article : Article) : SavedData where
  source := (article.source.bind Source.name).getD ""
  title := article.title.getD ""
  description := article.description.getD ""
  url := article.url.getD ""
  urlToImage := article.urlToImage.getD ""

def saveArticle (article : Article) (completion : κ) : Callback App (SavedRequest κ) α Unit := do
  let currentUser ← App.forcedCurrentUser
  Callback.send (.addDocument currentUser.uid article completion)

def saveArticle.onAdded (article : Article)
    (completion : Bool → Callback App (SavedRequest κ) α Unit) (error : Bool) :
    Callback App (SavedRequest κ) α Unit := do
  if error then completion false
  else
    App.modifyNews fun news =>
      { news with
        savedNews := article :: news.savedNews
        savedUrls := news.savedUrls ++ [article.url.getD ""] }
    completion true

def unsaveArticle (url : String) (completion : κ) : Callback App (SavedRequest κ) α Unit := do
  let currentUser ← App.forcedCurrentUser
  Callback.send (.whereUrl currentUser.uid url completion)

/-- `documents` is `none` where the query failed. An article without a url differs from every
`url`. -/
def unsaveArticle.onDocuments [Canonical] (uid : Uid) (url : String)
    (completion : Bool → Callback App (SavedRequest κ) α Unit)
    (documents : Option (List DocumentId)) : Callback App (SavedRequest κ) α Unit :=
  match documents with
  | none => completion false
  | some documents => do
      forM documents fun document => Callback.send (.delete uid document)
      App.modifyNews fun news =>
        { news with
          savedNews := news.savedNews.filter fun article =>
            article.url.all fun articleUrl => !equal articleUrl url
          savedUrls := news.savedUrls.filter fun savedUrl => !equal savedUrl url }
      completion true

def getSavedNews : Callback App (SavedRequest κ) α Unit := do
  match ← Callback.read App.currentUser with
  | none => return
  | some currentUser => Callback.send (.orderedBySavedAt currentUser.uid)

/-- One turn of the loop over the documents: a document without a string `url`
fails the cast. -/
def appendSavedUrl (document : SavedFields) : Callback App ρ α Unit := do
  let url ← Callback.forced document.url
  App.modifyNews fun news => { news with savedUrls := news.savedUrls ++ [url] }

def getSavedNews.onDocuments (completion : Option (List Article) → Callback App ρ α Unit)
    (documents : Option (List SavedFields)) : Callback App ρ α Unit :=
  match documents with
  | none => completion none
  | some documents => do
      App.modifyNews fun news => { news with savedUrls := [] }
      forM documents appendSavedUrl
      completion (some (documents.map SavedFields.article))

def updateSavedUrls : Callback App (SavedRequest κ) α Unit := do
  let currentUser ← App.forcedCurrentUser
  Callback.send (.getDocuments currentUser.uid)

def updateSavedUrls.onDocuments (documents : Option (List SavedFields)) :
    Callback App ρ α Unit :=
  match documents with
  | none => return
  | some documents => do
      App.modifyNews fun news => { news with savedUrls := [] }
      forM documents appendSavedUrl

/-! ## What the operations send -/

theorem saveArticle_apply (article : Article) (completion : κ)
    (t : Trace App (SavedRequest κ) α) :
    saveArticle article completion t = (t.store.currentUser.map fun _ => (), { t with
      issued := t.issued ++ t.store.currentUser.toList.map fun user =>
        .addDocument user.uid article completion }) := by
  rw [saveArticle, Callback.bind_apply, App.forcedCurrentUser_apply]
  cases t.store.currentUser <;> simp

theorem unsaveArticle_apply (url : String) (completion : κ) (t : Trace App (SavedRequest κ) α) :
    unsaveArticle url completion t = (t.store.currentUser.map fun _ => (), { t with
      issued := t.issued ++ t.store.currentUser.toList.map fun user =>
        .whereUrl user.uid url completion }) := by
  rw [unsaveArticle, Callback.bind_apply, App.forcedCurrentUser_apply]
  cases t.store.currentUser <;> simp

theorem getSavedNews_apply (t : Trace App (SavedRequest κ) α) :
    getSavedNews t = (some (), { t with
      issued := t.issued ++ t.store.currentUser.toList.map fun user =>
        .orderedBySavedAt user.uid }) := by
  rw [getSavedNews, Callback.bind_apply, Callback.read_apply]
  cases t.store.currentUser <;> simp

theorem updateSavedUrls_apply (t : Trace App (SavedRequest κ) α) :
    updateSavedUrls t = (t.store.currentUser.map fun _ => (), { t with
      issued := t.issued ++ t.store.currentUser.toList.map fun user =>
        .getDocuments user.uid }) := by
  rw [updateSavedUrls, Callback.bind_apply, App.forcedCurrentUser_apply]
  cases t.store.currentUser <;> simp

/-! ## What the closures do to the store -/

/-- The loop over the documents appends their urls, up to the first document that has none. -/
theorem forM_appendSavedUrl_apply (documents : List SavedFields) (t : Trace App ρ α) :
    (forM documents appendSavedUrl : Callback App ρ α Unit) t =
      (if documents.all (·.url.isSome) then some () else none,
        { t with store := { t.store with news := { t.store.news with
          savedUrls := t.store.news.savedUrls ++
            (documents.takeWhile (·.url.isSome)).filterMap SavedFields.url } } }) := by
  induction documents generalizing t with
  | nil => simp
  | cons document documents ih =>
      rw [List.forM_cons, Callback.bind_apply]
      cases hurl : document.url with
      | none => simp [appendSavedUrl, hurl]
      | some url =>
          have hturn : (appendSavedUrl document : Callback App ρ α Unit) t =
              (some (), { t with store := { t.store with news := { t.store.news with
                savedUrls := t.store.news.savedUrls ++ [url] } } }) := by
            simp [appendSavedUrl, hurl, App.modifyNews]
          rw [hturn]
          simp [ih, hurl]

theorem forM_appendSavedUrl (documents : List SavedData) (t : Trace App ρ α) :
    (forM (documents.map SavedData.fields) appendSavedUrl : Callback App ρ α Unit) t =
      (some (), { t with store := { t.store with news := { t.store.news with
        savedUrls := t.store.news.savedUrls ++ documents.map SavedData.url } } }) := by
  have hall : ∀ fields ∈ documents.map SavedData.fields, fields.url.isSome = true := by
    intro fields hfields
    obtain ⟨data, -, rfl⟩ := List.mem_map.mp hfields
    rfl
  have hurls : (documents.map SavedData.fields).filterMap SavedFields.url =
      documents.map SavedData.url := by
    rw [List.filterMap_map]
    exact congrFun List.filterMap_eq_map documents
  rw [forM_appendSavedUrl_apply, List.all_eq_true.mpr hall, if_pos rfl,
    List.takeWhile_eq_self_iff.mpr hall, hurls]

theorem saveArticle.onAdded_saved (article : Article)
    (completion : Bool → Callback App (SavedRequest κ) α Unit)
    (t : Trace App (SavedRequest κ) α) :
    saveArticle.onAdded article completion false t =
      completion true { t with store := { t.store with news := { t.store.news with
        savedNews := article :: t.store.news.savedNews
        savedUrls := t.store.news.savedUrls ++ [article.key] } } } := rfl

theorem unsaveArticle.onDocuments_matched [Canonical] (uid : Uid) (url : String)
    (completion : Bool → Callback App (SavedRequest κ) α Unit) (documents : List DocumentId)
    (t : Trace App (SavedRequest κ) α) :
    unsaveArticle.onDocuments uid url completion (some documents) t =
      completion true
        { store := { t.store with news := { t.store.news with
            savedNews := t.store.news.savedNews.filter fun article =>
              article.url.all fun articleUrl => !equal articleUrl url
            savedUrls := t.store.news.savedUrls.filter fun savedUrl => !equal savedUrl url } }
          issued := t.issued ++ documents.map (SavedRequest.delete uid)
          completed := t.completed } := by
  rw [onDocuments, Callback.bind_apply, Callback.forM_send_apply]
  rfl

theorem unsaveArticle.onDocuments_decomposed (uid : Uid) (url : String)
    (completion : Bool → Callback App (SavedRequest κ) α Unit) (documents : List DocumentId)
    (t : Trace App (SavedRequest κ) α) :
    unsaveArticle.onDocuments uid url completion (some documents) t =
      completion true
        { store := { t.store with news := { t.store.news with
            savedNews := t.store.news.savedNews.filter fun article => article.url != some url
            savedUrls := t.store.news.savedUrls.filter fun savedUrl => savedUrl != url } }
          issued := t.issued ++ documents.map (SavedRequest.delete uid)
          completed := t.completed } := by
  simp only [onDocuments_matched, equal_decomposed, all_not_beq]
  rfl

theorem getSavedNews.onDocuments_fetched
    (completion : Option (List Article) → Callback App ρ α Unit) (documents : List SavedData)
    (t : Trace App ρ α) :
    getSavedNews.onDocuments completion (some (documents.map SavedData.fields)) t =
      completion (some ((documents.map SavedData.fields).map SavedFields.article))
        { t with store := { t.store with news := { t.store.news with
          savedUrls := documents.map SavedData.url } } } := by
  simp only [onDocuments, App.modifyNews, Callback.bind_apply, Callback.write_apply,
    forM_appendSavedUrl, List.nil_append]

theorem updateSavedUrls.onDocuments_fetched (documents : List SavedData) (t : Trace App ρ α) :
    (updateSavedUrls.onDocuments (some (documents.map SavedData.fields)) :
        Callback App ρ α Unit) t =
      (some (), { t with store := { t.store with news := { t.store.news with
        savedUrls := documents.map SavedData.url } } }) := by
  simp only [onDocuments, App.modifyNews, Callback.bind_apply, Callback.write_apply,
    forM_appendSavedUrl, List.nil_append]

end NewsFlash.Models.Networking
