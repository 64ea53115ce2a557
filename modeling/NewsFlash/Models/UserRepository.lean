import Mathlib.Data.List.Basic

/-!
# The stored profile

`UserRepository` keeps seven keys of `UserDefaults.standard`. Values are
untyped; readers cast them.
-/

namespace NewsFlash.Models

inductive Key where
  | firstname | lastname | country | interests | email | isCountrySpecific | resultLanguage
deriving DecidableEq, Repr

def Key.allCases : List Key :=
  [.firstname, .lastname, .country, .interests, .email, .isCountrySpecific, .resultLanguage]

theorem Key.mem_allCases (key : Key) : key ∈ Key.allCases := by
  cases key <;> decide

inductive Value where
  | string (s : String)
  | bool (b : Bool)
  | strings (xs : List String)
  | dictionary (entries : List (String × String))
deriving DecidableEq, Repr

namespace Value

def asString : Value → Option String
  | string s => some s
  | _ => none

def asBool : Value → Option Bool
  | bool b => some b
  | _ => none

def asStrings : Value → Option (List String)
  | strings xs => some xs
  | _ => none

def asDictionary : Value → Option (List (String × String))
  | dictionary entries => some entries
  | _ => none

end Value

/-- The part of `UserDefaults.standard` that the app uses. -/
abbrev Defaults := Key → Option Value

namespace UserRepository

def store (key : Key) (value : Value) (defaults : Defaults) : Defaults :=
  fun k => if k = key then some value else defaults k

def fetch (key : Key) (defaults : Defaults) : Option Value := defaults key

def checkFor (key : Key) (defaults : Defaults) : Bool := (defaults key).isSome

def storeAll (entries : List (Key × Value)) (defaults : Defaults) : Defaults :=
  entries.foldl (fun d entry => store entry.1 entry.2 d) defaults

def removeObject (key : Key) (defaults : Defaults) : Defaults :=
  fun k => if k = key then none else defaults k

def removeUserInfo (defaults : Defaults) : Defaults :=
  Key.allCases.foldl (fun d key => removeObject key d) defaults

theorem foldl_removeObject (keys : List Key) (defaults : Defaults) (k : Key) :
    keys.foldl (fun d key => removeObject key d) defaults k =
      if k ∈ keys then none else defaults k := by
  induction keys generalizing defaults with
  | nil => simp
  | cons key keys ih =>
      rw [List.foldl_cons, ih]
      by_cases hk : k ∈ keys
      · simp [hk]
      · by_cases hkey : k = key <;> simp [hk, hkey, removeObject]

@[simp] theorem removeUserInfo_apply (defaults : Defaults) (k : Key) :
    removeUserInfo defaults k = none := by
  rw [removeUserInfo, foldl_removeObject, if_pos (Key.mem_allCases k)]

end UserRepository

/-- What `addObserver` has added: code that runs whenever a key changes, before the writer goes
on. `run` tells whether it comes to its end. The observers of the app look for the key first. -/
class Observers where
  run : Key → Defaults → Bool
  run_of_absent : ∀ key defaults, defaults key = none → run key defaults = true

/-- Nothing is observed. -/
instance (priority := low) unobserved : Observers := ⟨fun _ _ => true, fun _ _ _ => rfl⟩

def Observers.through [Observers] : List (Key × Value) → Defaults → Bool
  | [], _ => true
  | (key, value) :: entries, defaults =>
      let defaults := UserRepository.store key value defaults
      Observers.run key defaults && through entries defaults

@[simp] theorem unobserved_run (key : Key) (defaults : Defaults) :
    @Observers.run unobserved key defaults = true := rfl

@[simp] theorem unobserved_through (entries : List (Key × Value)) (defaults : Defaults) :
    @Observers.through unobserved entries defaults = true := by
  induction entries generalizing defaults with
  | nil => rfl
  | cons entry entries ih => exact ih _

end NewsFlash.Models
