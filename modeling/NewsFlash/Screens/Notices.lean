import NewsFlash.Library.Changes
import NewsFlash.Library.Machine

/-!
# The notice of a lost connection

Every screen watches the network with a `Reachability` of its own. The system reports flags on a
serial queue; flags that differ from the ones before leave a job for the main queue, whose
notification reads the connection when it runs. The notifier may fail to start, reports may be in
flight when it stops, and jobs may outlive the screen.
-/

namespace NewsFlash.Screens.Notices

open NewsFlash.Library

/-! ## Flags -/

abbrev SCNetworkReachabilityFlags := BitVec 32

namespace SCNetworkReachabilityFlags

def reachable : SCNetworkReachabilityFlags := 1#32 <<< 1
def connectionRequired : SCNetworkReachabilityFlags := 1#32 <<< 2
def connectionOnTraffic : SCNetworkReachabilityFlags := 1#32 <<< 3
def interventionRequired : SCNetworkReachabilityFlags := 1#32 <<< 4
def connectionOnDemand : SCNetworkReachabilityFlags := 1#32 <<< 5
def isWWAN : SCNetworkReachabilityFlags := 1#32 <<< 18

end SCNetworkReachabilityFlags

inductive Connection where
  | none | unavailable | wifi | cellular
deriving DecidableEq, Repr

section Flags

open SCNetworkReachabilityFlags

variable (flags : SCNetworkReachabilityFlags)

def contains (member : SCNetworkReachabilityFlags) : Bool := flags &&& member == member

def isOnWWANFlagSet : Bool := contains flags isWWAN
def isReachableFlagSet : Bool := contains flags reachable
def isConnectionRequiredFlagSet : Bool := contains flags connectionRequired
def isInterventionRequiredFlagSet : Bool := contains flags interventionRequired

def isConnectionOnTrafficOrDemandFlagSet : Bool :=
  flags &&& (connectionOnTraffic ||| connectionOnDemand) != 0#32

/-- The connection that flags stand for on a device. -/
def connection : Connection :=
  if !isReachableFlagSet flags then .unavailable
  else Id.run do
    let mut connection := Connection.unavailable
    if !isConnectionRequiredFlagSet flags then
      connection := .wifi
    if isConnectionOnTrafficOrDemandFlagSet flags then
      if !isInterventionRequiredFlagSet flags then
        connection := .wifi
    if isOnWWANFlagSet flags then
      connection := .cellular
    return connection

end Flags

/-! ## Reachability and its screen -/

structure Reachability where
  allowsCellularConnection : Bool := true
  notifierRunning : Bool := false
  flags : Option SCNetworkReachabilityFlags := none
deriving DecidableEq, Repr

/-- What the system answers to a question for the flags on the serial queue: the reports that
were waiting there, and the flags unless it fails. -/
structure Answer where
  waiting : List SCNetworkReachabilityFlags := []
  flags : Option SCNetworkReachabilityFlags

/-- What the system makes of the start of the notifier. -/
structure System where
  setCallback : Bool := true
  setDispatchQueue : Bool := true
  answer : Answer

/-- `mainQueue` counts the jobs that wait. `handled` is what the handler of the screen has read, and
`messages` what it has shown. -/
structure State where
  reachability : Option Reachability := some {}
  mainQueue : Nat := 0
  handled : List Connection := []
  messages : List String := []
deriving DecidableEq, Repr

namespace State

/-- The observer of `flags`; the weak reference is `nil` once the screen is gone. -/
def assign (s : State) (flags : SCNetworkReachabilityFlags) : State :=
  match s.reachability with
  | none => s
  | some r =>
      let s := { s with reachability := some { r with flags := some flags } }
      if some flags ≠ r.flags then { s with mainQueue := s.mainQueue + 1 } else s

def setNotifierRunning (notifierRunning : Bool) (s : State) : State :=
  { s with reachability := s.reachability.map fun r => { r with notifierRunning } }

def stopNotifier : State → State := setNotifierRunning false

/-- The serial queue runs what waits before the question; `false` is an error. -/
def setReachabilityFlags (answer : Answer) (s : State) : Bool × State :=
  let s := answer.waiting.foldl assign s
  match answer.flags with
  | none => (false, s.stopNotifier)
  | some flags => (true, s.assign flags)

def startNotifier (system : System) (s : State) : Bool × State :=
  if (s.reachability.map Reachability.notifierRunning).getD true then (true, s)
  else if !system.setCallback then (false, s.stopNotifier)
  else if !system.setDispatchQueue then (false, s.stopNotifier)
  else
    let result := setReachabilityFlags system.answer s
    if result.1 then (true, result.2.setNotifierRunning true) else (false, result.2)

/-- The getter asks the system where no flags have been set. -/
def connection (answer : Answer) (s : State) : Connection × State :=
  let s := if (s.reachability.bind Reachability.flags).isNone then
    (setReachabilityFlags answer s).2 else s
  match s.reachability with
  | none => (.unavailable, s)
  | some r =>
      match r.flags.map Notices.connection with
      | some .unavailable | Option.none => (.unavailable, s)
      | some .none => (.unavailable, s)
      | some .cellular => (if r.allowsCellularConnection then .cellular else .unavailable, s)
      | some .wifi => (.wifi, s)

def reachabilityChanged (answer : Answer) (s : State) : State :=
  let (connection, s) := s.connection answer
  let s := { s with handled := s.handled ++ [connection] }
  if connection = .unavailable then
    { s with messages := s.messages ++ ["No internet connection!"] }
  else s

/-- The job that `notifyReachabilityChanged` leaves; both closures of the app are `nil`, so the
first connection only decides between two that are not called. -/
def notify (first second : Answer) (s : State) : State :=
  match s.reachability with
  | none => s
  | some _ => (s.connection first).2.reachabilityChanged second

def viewDidLoad (system : System) : State := (startNotifier system {}).2

end State

/-- A report may come at any time, with any flags. -/
inductive Action where
  | callback (flags : SCNetworkReachabilityFlags)
  | mainQueue (first second : Answer)
  | deinit

def machine : Machine State Action where
  step s
    | .callback flags => some (s.assign flags)
    | .mainQueue first second =>
        if s.mainQueue = 0 then none
        else some ({ s with mainQueue := s.mainQueue - 1 }.notify first second)
    | .deinit => some { s.stopNotifier with reachability := none }

/-! ## What has been reported -/

/-- Nothing is reported where the notifier could not be set up. -/
def System.reports (system : System) : List SCNetworkReachabilityFlags :=
  if system.setCallback && system.setDispatchQueue then
    system.answer.waiting ++ system.answer.flags.toList
  else []

def Action.report : Action → Option SCNetworkReachabilityFlags
  | .callback flags => some flags
  | .mainQueue _ _ | .deinit => none

/-- Each change of the flags has left one notification, handled or waiting. -/
structure Announced (reports : List SCNetworkReachabilityFlags) (s : State) : Prop where
  once : s.handled.length + s.mainQueue = (changes reports).length
  heard : Heard connection (changes reports) s.handled
  latest : s.mainQueue = 0 → s.handled.getLast? = reports.getLast?.map connection
  shown : s.messages =
    (s.handled.filter (· = .unavailable)).map fun _ => "No internet connection!"

/-! ## What a connection is -/

theorem connection_ne_none (flags : SCNetworkReachabilityFlags) :
    connection flags ≠ .none := by
  unfold connection
  cases isReachableFlagSet flags <;> cases isConnectionRequiredFlagSet flags <;>
    cases isConnectionOnTrafficOrDemandFlagSet flags <;>
      cases isInterventionRequiredFlagSet flags <;> cases isOnWWANFlagSet flags <;> decide

/-! ## What a screen keeps -/

section Keeps

variable {reports : List SCNetworkReachabilityFlags} {s s' : State}

/-- The notices that are shown are those of the handled notifications. -/
def Shown (s : State) : Prop :=
  s.messages = (s.handled.filter (· = .unavailable)).map fun _ => "No internet connection!"

/-- A screen that is still there knows the last report. -/
structure Knows (reports : List SCNetworkReachabilityFlags) (s : State) : Prop where
  flags : ∃ r, s.reachability = some r ∧ r.allowsCellularConnection = true ∧
    r.flags = reports.getLast?
  once : s.handled.length + s.mainQueue = (changes reports).length
  heard : Heard connection (changes reports) s.handled
  shown : Shown s

theorem Knows.announced (h : Knows reports s) : Announced reports s := by
  refine ⟨h.once, h.heard, fun hqueue => ?_, h.shown⟩
  have hlength : s.handled.length = (changes reports).length := by
    have honce := h.once
    omega
  rw [h.heard.latest hlength, getLast?_changes]

theorem knows_setNotifierRunning (h : Knows reports s) (notifierRunning : Bool) :
    Knows reports (s.setNotifierRunning notifierRunning) := by
  obtain ⟨⟨r, hr, hcellular, hflags⟩, honce, hheard, hshown⟩ := h
  refine ⟨⟨{ r with notifierRunning }, ?_, hcellular, hflags⟩, honce, hheard, hshown⟩
  rw [State.setNotifierRunning, hr]
  rfl

/-- A report is remembered, and leaves a job if it is a change. -/
theorem knows_assign (h : Knows reports s) (flags : SCNetworkReachabilityFlags) :
    Knows (reports ++ [flags]) (s.assign flags) := by
  obtain ⟨⟨r, hr, hcellular, hflags⟩, honce, hheard, hshown⟩ := h
  have hlast : (reports ++ [flags]).getLast? = some flags := List.getLast?_concat
  unfold State.assign
  rw [hr]
  simp only
  by_cases hchange : some flags = r.flags
  · have hsame : changes (reports ++ [flags]) = changes reports := by
      rw [changes_concat, if_pos (hflags.symm.trans hchange.symm)]
    rw [if_neg (not_not.mpr hchange)]
    refine ⟨⟨_, rfl, hcellular, hlast.symm⟩, ?_, ?_, hshown⟩
    · rw [hsame]
      exact honce
    · rw [hsame]
      exact hheard
  · have hnew : changes (reports ++ [flags]) = changes reports ++ [flags] := by
      rw [changes_concat, if_neg fun h => hchange (h.symm.trans hflags.symm)]
    rw [if_pos hchange]
    refine ⟨⟨_, rfl, hcellular, hlast.symm⟩, ?_, ?_, hshown⟩
    · rw [hnew, List.length_append, List.length_singleton, ← honce]
      rfl
    · rw [hnew]
      exact hheard.change flags

theorem knows_foldl_assign (h : Knows reports s) (waiting : List SCNetworkReachabilityFlags) :
    Knows (reports ++ waiting) (waiting.foldl State.assign s) := by
  induction waiting generalizing reports s with
  | nil =>
      rw [List.append_nil]
      exact h
  | cons flags waiting ih =>
      rw [List.append_cons]
      exact ih (knows_assign h flags)

theorem knows_setReachabilityFlags (h : Knows reports s) (answer : Answer) :
    Knows (reports ++ (answer.waiting ++ answer.flags.toList))
      (s.setReachabilityFlags answer).2 := by
  have hwaiting := knows_foldl_assign h answer.waiting
  unfold State.setReachabilityFlags
  cases answer.flags with
  | none =>
      rw [Option.toList_none, List.append_nil]
      exact knows_setNotifierRunning hwaiting false
  | some flags =>
      rw [Option.toList_some, ← List.append_assoc]
      exact knows_assign hwaiting flags

theorem knows_viewDidLoad (system : System) :
    Knows system.reports (State.viewDidLoad system) := by
  obtain ⟨setCallback, setDispatchQueue, answer⟩ := system
  have hinitial : Knows [] ({} : State) :=
    ⟨⟨{}, rfl, rfl, rfl⟩, rfl, Heard.nil, rfl⟩
  cases setCallback with
  | false => exact knows_setNotifierRunning hinitial false
  | true =>
  cases setDispatchQueue with
  | false => exact knows_setNotifierRunning hinitial false
  | true =>
      have hset : Knows (answer.waiting ++ answer.flags.toList)
          (State.setReachabilityFlags answer {}).2 := knows_setReachabilityFlags hinitial answer
      change Knows (answer.waiting ++ answer.flags.toList)
        (if (State.setReachabilityFlags answer {}).1 then
          (true, (State.setReachabilityFlags answer {}).2.setNotifierRunning true)
        else (false, (State.setReachabilityFlags answer {}).2)).2
      split
      · exact knows_setNotifierRunning hset true
      · exact hset

theorem connection_of_flags {r : Reachability} {flags : SCNetworkReachabilityFlags}
    (hr : s.reachability = some r) (hcellular : r.allowsCellularConnection = true)
    (hflags : r.flags = some flags) (answer : Answer) :
    s.connection answer = (connection flags, s) := by
  unfold State.connection
  simp only [hr, Option.bind_some, hflags, Option.isNone_some, Bool.false_eq_true, if_false,
    Option.map_some]
  cases hconnection : connection flags with
  | none => exact absurd hconnection (connection_ne_none flags)
  | unavailable | wifi => rfl
  | cellular =>
      rw [if_pos hcellular]

/-- The handler reads the flags of the last report, and shows a lost connection. -/
theorem notify_of_flags {r : Reachability} {flags : SCNetworkReachabilityFlags}
    (hr : s.reachability = some r) (hcellular : r.allowsCellularConnection = true)
    (hflags : r.flags = some flags) (first second : Answer) :
    s.notify first second = { s with
      handled := s.handled ++ [connection flags]
      messages := s.messages ++
        if connection flags = .unavailable then ["No internet connection!"] else [] } := by
  have hread := connection_of_flags hr hcellular hflags
  obtain ⟨reachability, mainQueue, handled, messages⟩ := s
  obtain rfl : reachability = some r := hr
  unfold State.notify State.reachabilityChanged
  simp only [hread]
  split
  · rfl
  · rw [List.append_nil]

theorem knows_notify (h : Knows reports s) (hqueue : s.mainQueue ≠ 0) (first second : Answer) :
    Knows reports ({ s with mainQueue := s.mainQueue - 1 }.notify first second) := by
  obtain ⟨⟨r, hr, hcellular, hflags⟩, honce, hheard, hshown⟩ := h
  have hlate : s.handled.length < (changes reports).length := by omega
  -- a job waits, so something has been reported
  obtain ⟨flags, hlast⟩ : ∃ flags, (changes reports).getLast? = some flags := by
    cases hchanges : changes reports with
    | nil =>
        rw [hchanges] at hlate
        exact absurd hlate (Nat.not_lt_zero _)
    | cons x xs => exact ⟨_, List.getLast?_cons⟩
  have hsome : r.flags = some flags := by rw [hflags, ← getLast?_changes, hlast]
  rw [@notify_of_flags { s with mainQueue := s.mainQueue - 1 } r flags hr hcellular hsome]
  refine ⟨⟨r, hr, hcellular, hflags⟩, ?_, hheard.notice hlate hlast, ?_⟩
  · rw [List.length_append, List.length_singleton]
    change s.handled.length + 1 + (s.mainQueue - 1) = _
    omega
  · unfold Shown
    rw [List.filter_append, List.map_append, hshown]
    by_cases hunavailable : connection flags = .unavailable
    · simp [hunavailable]
    · simp [hunavailable]

theorem gone_run {as : List Action} (hgone : s.reachability = none)
    (hrun : machine.run s as = some s') : s'.reachability = none := by
  refine machine.run_invariant (G := fun _ _ => True) (I := fun s => s.reachability = none)
    (fun {s a s'} hgone _ hstep => ?_) hgone (machine.meets_of_forall (fun _ _ => trivial) s) hrun
  cases a with
  | callback flags =>
      obtain rfl := Option.some.inj hstep
      unfold State.assign
      rw [hgone]
      exact hgone
  | mainQueue first second =>
      obtain ⟨-, hstep⟩ := Option.ite_none_left_eq_some.mp hstep
      obtain rfl := Option.some.inj hstep
      unfold State.notify
      simp only [hgone]
  | deinit =>
      obtain rfl := Option.some.inj hstep
      rfl

theorem knows_run {as : List Action} (h : Knows reports s) (hrun : machine.run s as = some s')
    (hthere : s'.reachability.isSome) :
    Knows (reports ++ as.filterMap Action.report) s' := by
  induction as generalizing reports s with
  | nil =>
      obtain rfl := Option.some.inj hrun
      rw [List.filterMap_nil, List.append_nil]
      exact h
  | cons a as ih =>
      obtain ⟨t, hstep, hrest⟩ := machine.run_cons_eq_some.mp hrun
      cases a with
      | callback flags =>
          obtain rfl := Option.some.inj hstep
          change Knows (reports ++ flags :: as.filterMap Action.report) s'
          rw [List.append_cons]
          exact ih (knows_assign h flags) hrest
      | mainQueue first second =>
          obtain ⟨hqueue, hstep⟩ := Option.ite_none_left_eq_some.mp hstep
          obtain rfl := Option.some.inj hstep
          exact ih (knows_notify h hqueue first second) hrest
      | deinit =>
          obtain rfl := Option.some.inj hstep
          rw [gone_run rfl hrest] at hthere
          cases hthere

end Keeps

/-! ## Every change is announced once -/

/-- **Outages.** However the notifier starts, in every run of reports with any flags, jobs of the
main queue and the end of the screen: as long as the screen is there, each change of the flags has
left exactly one notification that is handled or waits, each handled one has read the connection
of its own change or a later one and never went back, the last one has read the last report once
none waits, and a message was shown for exactly those that found the connection lost. -/
theorem outages_announced {system : System} {as : List Action} {s : State}
    (h : machine.run (State.viewDidLoad system) as = some s) (hthere : s.reachability.isSome) :
    Announced (system.reports ++ as.filterMap Action.report) s :=
  (knows_run (knows_viewDidLoad system) h hthere).announced

open SCNetworkReachabilityFlags in
/-- The network is there at first, is lost, and comes back while the notice of its loss waits. -/
theorem outages_announced_flicker :
    Announced [reachable, 0#32, 0#32, reachable, 0#32]
      { reachability := some { notifierRunning := true, flags := some 0#32 }
        handled := [.wifi, .wifi, .wifi, .unavailable]
        messages := ["No internet connection!"] } :=
  @outages_announced { answer := { flags := some reachable } }
    [.mainQueue ⟨[], none⟩ ⟨[], none⟩, .callback 0#32, .callback 0#32, .callback reachable,
      .mainQueue ⟨[], none⟩ ⟨[], none⟩, .mainQueue ⟨[], none⟩ ⟨[], none⟩, .callback 0#32,
      .mainQueue ⟨[], none⟩ ⟨[], none⟩] _ (by decide +kernel) rfl

end NewsFlash.Screens.Notices
