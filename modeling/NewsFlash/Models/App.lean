import NewsFlash.Library.Callback
import NewsFlash.Models.News
import NewsFlash.Models.UserRepository

/-!
# The state of the process

What the operations and their closures read and write: the signed-in user that
the authentication service reports, the stored profile and `News.shared`.
-/

namespace NewsFlash.Models

open NewsFlash.Library

abbrev Uid := String

structure User where
  uid : Uid
  email : Option String
deriving DecidableEq, Repr

structure App where
  currentUser : Option User := none
  defaults : Defaults := fun _ => none
  news : News := {}

namespace App

variable {ρ α : Type}

/-- `Auth.auth().currentUser!` -/
def forcedCurrentUser : Callback App ρ α User := do
  Callback.forced (← Callback.read App.currentUser)

theorem forcedCurrentUser_apply (t : Trace App ρ α) :
    (forcedCurrentUser : Callback App ρ α User) t = (t.store.currentUser, t) := by
  rw [forcedCurrentUser, Callback.bind_apply, Callback.read_apply]
  exact Callback.forced_apply t.store.currentUser t

def modifyNews (f : News → News) : Callback App ρ α Unit :=
  Callback.write fun app => { app with news := f app.news }

def fetch (key : Key) : Callback App ρ α (Option Value) :=
  Callback.read fun app => UserRepository.fetch key app.defaults

def checkFor (key : Key) : Callback App ρ α Bool :=
  Callback.read fun app => UserRepository.checkFor key app.defaults

/-- The observers of a changed key, which run as it changes. -/
def observed [Observers] (key : Key) : Callback App ρ α Unit :=
  Callback.check fun app => Observers.run key app.defaults

def store [Observers] (key : Key) (value : Value) : Callback App ρ α Unit := do
  Callback.write fun app => { app with defaults := UserRepository.store key value app.defaults }
  observed key

def removeObject [Observers] (key : Key) : Callback App ρ α Unit := do
  Callback.write fun app => { app with defaults := UserRepository.removeObject key app.defaults }
  observed key

def removeUserInfo [Observers] : Callback App ρ α Unit := forM Key.allCases removeObject

section Stored

variable [Observers] (key : Key) (t : Trace App ρ α)

theorem store_apply (value : Value) :
    store key value t =
      (if Observers.run key (UserRepository.store key value t.store.defaults) then some ()
        else none, { t with store := { t.store with
          defaults := UserRepository.store key value t.store.defaults } }) := rfl

theorem removeObject_apply :
    removeObject key t = (some (), { t with store := { t.store with
      defaults := UserRepository.removeObject key t.store.defaults } }) := by
  have habsent : UserRepository.removeObject key t.store.defaults key = none := if_pos rfl
  rw [removeObject, Callback.bind_apply, Callback.write_apply]
  simp only [observed, Callback.check_apply, Observers.run_of_absent key _ habsent, if_true]

theorem forM_removeObject_apply (keys : List Key) :
    forM keys removeObject t = (some (), { t with store := { t.store with
      defaults := keys.foldl (fun d key => UserRepository.removeObject key d)
        t.store.defaults } }) := by
  induction keys generalizing t with
  | nil => rfl
  | cons key keys ih =>
      rw [List.forM_cons, Callback.bind_apply, removeObject_apply]
      exact ih _

theorem removeUserInfo_apply :
    removeUserInfo t = (some (), { t with store := { t.store with
      defaults := UserRepository.removeUserInfo t.store.defaults } }) :=
  forM_removeObject_apply t Key.allCases

end Stored

/-- The code traps; what it has stored until then stays stored. -/
def Traps (code : Callback App ρ α Unit) (t : Trace App ρ α) : Prop :=
  ∃ defaults, code t = (none, { t with store := { t.store with defaults := defaults } })

section Traps

variable {β : Type} {t : Trace App ρ α}

theorem traps_forced {value : Option β} {code : β → Callback App ρ α Unit}
    (h : ∀ b ∈ value, Traps (code b) t) : Traps (Callback.forced value >>= code) t := by
  cases value with
  | none => exact ⟨_, rfl⟩
  | some b => exact h b rfl

theorem traps_forcedCurrentUser {code : User → Callback App ρ α Unit}
    (h : ∀ user ∈ t.store.currentUser, Traps (code user) t) :
    Traps (forcedCurrentUser >>= code) t := by
  unfold Traps
  rw [Callback.bind_apply, forcedCurrentUser_apply]
  cases huser : t.store.currentUser with
  | none => exact ⟨_, rfl⟩
  | some user => exact h user huser

theorem traps_store [Observers] {key : Key} {value : Value} {code : Unit → Callback App ρ α Unit}
    (h : Observers.run key (UserRepository.store key value t.store.defaults) = true →
      Traps (code ()) { t with store := { t.store with
        defaults := UserRepository.store key value t.store.defaults } }) :
    Traps (store key value >>= code) t := by
  unfold Traps
  rw [Callback.bind_apply, store_apply]
  cases hrun : Observers.run key (UserRepository.store key value t.store.defaults) with
  | false => exact ⟨_, rfl⟩
  | true => exact h hrun

end Traps

@[simp] theorem store_unobserved (key : Key) (value : Value) (t : Trace App ρ α) :
    store key value t = (some (), { t with store := { t.store with
      defaults := UserRepository.store key value t.store.defaults } }) := rfl

end App

end NewsFlash.Models
