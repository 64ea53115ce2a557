/-!
# Articles and the shared store

The decoded articles and `News.shared`, the one store that every screen reads.
-/

namespace NewsFlash.Models

structure Source where
  id : Option String
  name : Option String
deriving DecidableEq, Repr

structure Article where
  source : Option Source
  title : Option String
  description : Option String
  url : Option String
  urlToImage : Option String
deriving DecidableEq, Repr

/-- `article.url ?? ""`, under which an article is saved and unsaved. -/
def Article.key (article : Article) : String := article.url.getD ""

def Article.titled (title : String) : Article := ⟨none, some title, none, none, none⟩

structure News where
  topNews : List Article := []
  allNews : List Article := []
  searchResults : List Article := []
  savedNews : List Article := []
  savedUrls : List String := []
  categoryNews : List Article := []
deriving DecidableEq, Repr

end NewsFlash.Models
