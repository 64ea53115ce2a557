import Mathlib.Data.List.Basic

/-!
# Controllers in front of one another

Frames are presented in front of one another, the foremost first. A frame holds one controller,
or it is a navigation controller with a stack of them, the top first. A controller pushes to and
pops from the navigation controller that it stands in; without one nothing happens, while a
controller that is shown from it is presented instead.
-/

namespace NewsFlash.Library

structure Frame (α : Type*) where
  isNavigation : Bool
  stack : List α
deriving DecidableEq

namespace Frame

variable {α : Type*}

def controllers (frames : List (Frame α)) : List α := frames.flatMap Frame.stack

def front (frames : List (Frame α)) : Option α := frames.head?.bind fun frame => frame.stack.head?

def present (y : α) (frames : List (Frame α)) : List (Frame α) := ⟨false, [y]⟩ :: frames

section Navigation

variable [DecidableEq α]

def navigates (x : α) (frame : Frame α) : Bool := frame.isNavigation && frame.stack.contains x

/-- `x.navigationController?.pushViewController(y, …)` -/
def push (x y : α) (frames : List (Frame α)) : List (Frame α) :=
  frames.map fun frame =>
    if frame.navigates x then { frame with stack := y :: frame.stack } else frame

/-- `x.navigationController?.popViewController(…)`; the last controller stays. -/
def pop (x : α) (frames : List (Frame α)) : List (Frame α) :=
  frames.map fun frame =>
    if frame.navigates x ∧ 1 < frame.stack.length then { frame with stack := frame.stack.tail }
    else frame

/-- A segue of the kind `show` from `x` to `y`. -/
def segue (x y : α) (frames : List (Frame α)) : List (Frame α) :=
  if frames.any (navigates x) then push x y frames else present y frames

end Navigation

/-! ## Frames without a navigation controller -/

def Bare (frames : List (Frame α)) : Prop := ∀ frame ∈ frames, frame.isNavigation = false

section Bare

variable {x y : α} {frames : List (Frame α)}

theorem bare_nil : Bare ([] : List (Frame α)) := fun _ hframe => absurd hframe List.not_mem_nil

theorem Bare.present (h : Bare frames) : Bare (present y frames) := by
  intro frame hframe
  rcases List.mem_cons.mp hframe with rfl | hframe
  · rfl
  · exact h frame hframe

theorem Bare.tail (h : Bare frames) : Bare frames.tail :=
  fun frame hframe => h frame (List.mem_of_mem_tail hframe)

variable [DecidableEq α]

theorem Bare.navigates (h : Bare frames) {frame : Frame α} (hframe : frame ∈ frames) :
    frame.navigates x = false := by
  rw [Frame.navigates, h frame hframe, Bool.false_and]

theorem Bare.push (h : Bare frames) : push x y frames = frames := by
  calc Frame.push x y frames
    _ = frames.map id := by
      apply List.map_congr_left
      intro frame hframe
      rw [if_neg (Bool.not_eq_true _ ▸ h.navigates hframe)]
      rfl
    _ = frames := List.map_id frames

theorem Bare.pop (h : Bare frames) : pop x frames = frames := by
  calc Frame.pop x frames
    _ = frames.map id := by
      apply List.map_congr_left
      intro frame hframe
      rw [h.navigates hframe, if_neg fun hpops => Bool.false_ne_true hpops.1]
      rfl
    _ = frames := List.map_id frames

theorem Bare.segue (h : Bare frames) : segue x y frames = Frame.present y frames := by
  apply if_neg
  rw [List.any_eq_true]
  rintro ⟨frame, hframe, hnavigates⟩
  rw [h.navigates hframe] at hnavigates
  cases hnavigates

end Bare

end Frame

end NewsFlash.Library
