import PinProtocol.System.Session

/-!
# Lifecycle — both programs from their first call of `open` to their exit

`main` makes two FIFOs and opens them, and a driver opens them with `connection_open`.  Each `open`
of a FIFO waits until the other end has been opened as well, so that the order of the calls on
either side matters.  After that the two processes are a `Session`; at its end `connection_close`
tells the device that there is nothing more to come, and `end_communication` removes the FIFOs.

`lifecycle_inevitable` follows all interleavings of the two processes from the start of both to
their ends; `lifecycle_swapped` says what comes of exchanged file names.
-/

namespace PinProtocol

open Control Relation

variable {α : Type}

/-! ## Two programs -/

/-- `DRIV2DEV_FILENAME` and `DEV2DRIV_FILENAME` -/
inductive FifoName
  | driv2dev
  | dev2driv
  deriving DecidableEq, Repr

def FifoName.other : FifoName → FifoName
  | .driv2dev => .dev2driv
  | .dev2driv => .driv2dev

/-- Where `main` of the firmware is; `openingOut` and `openingIn` are inside of its two calls of
`open`. -/
inductive MainPhase
  | making
  | makingOut
  | callingOut
  | openingOut
  | openedOut
  | openingIn
  | looping
  | closed
  | unlinked
  | exited
  /-- `end_communication` after a failed `open` has freed the device. -/
  | undefined
  deriving DecidableEq, Repr

/-- Where a program that uses the driver is; `refused` is a `connection_open` that has returned
NULL. -/
inductive DriverStage (α : Type)
  | calling
  | openingIn
  | openedIn
  | openingOut
  | running
  | refused
  | closed (a : α)

/-- The two FIFOs that may exist, and the two processes; the session is what they have come to on
the connection. -/
structure Lifecycle (α : Type) where
  driv2dev : Bool
  dev2driv : Bool
  main : MainPhase
  driver : DriverStage α
  session : Session α

namespace Lifecycle

/-- Files that have been left over may be there before the firmware makes them. -/
def start (client : Client α) (d : Device) (driv2dev dev2driv : Bool) : Lifecycle α :=
  { driv2dev, dev2driv, main := .making, driver := .calling, session := .start client d }

def hasFile (w : Lifecycle α) : FifoName → Bool
  | .driv2dev => w.driv2dev
  | .dev2driv => w.dev2driv

/-- The firmware has called `open( DEV2DRIV_FILENAME, O_WRONLY )`. -/
def mainWrites (w : Lifecycle α) : Bool :=
  match w.main with
  | .openingOut | .openedOut | .openingIn | .looping | .closed | .unlinked | .exited => true
  | _ => false

/-- The firmware has called `open( DRIV2DEV_FILENAME, O_RDONLY )`. -/
def mainReads (w : Lifecycle α) : Bool :=
  match w.main with
  | .openingIn | .looping | .closed | .unlinked | .exited => true
  | _ => false

/-- The driver has called `open( in_filename, O_RDONLY )`. -/
def driverReads (w : Lifecycle α) : Bool :=
  match w.driver with
  | .openingIn | .openedIn | .openingOut | .running | .closed _ => true
  | _ => false

/-- The driver has called `open( out_filename, O_WRONLY )`. -/
def driverWrites (w : Lifecycle α) : Bool :=
  match w.driver with
  | .openingOut | .running | .closed _ => true
  | _ => false

/-- The next step of the firmware, when the driver opens `inName` for its replies. -/
def mainStep (b : Build) (inName : FifoName) (w : Lifecycle α) : Option (Lifecycle α) :=
  match w.main with
  | .making => some { w with main := .makingOut, driv2dev := true }
  | .makingOut => some { w with main := .callingOut, dev2driv := true }
  | .callingOut =>
      if w.dev2driv then some { w with main := .openingOut }
      else some { w with main := .undefined }
  | .openingOut =>
      -- `open` for writing waits for a reader
      if inName = .dev2driv ∧ w.driverReads then some { w with main := .openedOut } else none
  | .openedOut =>
      if w.driv2dev then some { w with main := .openingIn }
      else some { w with main := .undefined }
  | .openingIn =>
      if inName.other = .driv2dev ∧ w.driverWrites then some { w with main := .looping } else none
  | .looping =>
      match w.session.device with
      | .ended => some { w with main := .closed }
      | _ => (w.session.deviceStep b).map fun session => { w with session }
  | .closed => some { w with main := .unlinked, driv2dev := false }
  | .unlinked => some { w with main := .exited, dev2driv := false }
  | .exited => none
  | .undefined => none

/-- The next step of the driver's process: `connection_open`, the calls of the program, and
`connection_close`, which closes both files. -/
def driverStep (b : Build) (inName : FifoName) (w : Lifecycle α) : Option (Lifecycle α) :=
  match w.driver with
  | .calling =>
      if w.hasFile inName then some { w with driver := .openingIn }
      else some { w with driver := .refused }
  | .openingIn =>
      if inName = .dev2driv ∧ w.mainWrites then some { w with driver := .openedIn } else none
  | .openedIn =>
      if w.hasFile inName.other then some { w with driver := .openingOut }
      else some { w with driver := .refused }
  | .openingOut =>
      if inName.other = .driv2dev ∧ w.mainReads then some { w with driver := .running } else none
  | .running =>
      match w.session.driver with
      | .ready (.done a) =>
          some { w with driver := .closed a, session := { w.session with driver := .gone } }
      | _ => (w.session.driverStep b).map fun session => { w with session }
  | .refused => none
  | .closed _ => none

/-- One step of either process. -/
def Step (b : Build) (inName : FifoName) (w w' : Lifecycle α) : Prop :=
  w.mainStep b inName = some w' ∨ w.driverStep b inName = some w'

/-! ## The end of everything -/

/-- How the two processes end, when `dev2driv` says whether the file had been left over. -/
inductive Finished (b : Build) (client : Client α) (d : Device) (dev2driv : Bool) :
    Lifecycle α → Prop where
  /-- Both have exited, and the files have been removed. -/
  | completed {a : α} {d' : Device} (h : client.run (deviceLink b) d = some (a, d')) :
      Finished b client d dev2driv
        { driv2dev := false, dev2driv := false, main := .exited, driver := .closed a,
          session := { driver := .gone, device := .ended, toDevice := [], toDriver := [] } }
  /-- One of the two has left its arrays, or the device does not answer. -/
  | broken {s : Session α} (h : Ended b client d s) (hdone : ∀ a, s.driver ≠ .ready (.done a)) :
      Finished b client d dev2driv
        { driv2dev := true, dev2driv := true, main := .looping, driver := .running, session := s }
  /-- The driver was there before the files; the firmware waits for another one. -/
  | refused (h : dev2driv = false) :
      Finished b client d dev2driv
        { driv2dev := true, dev2driv := true, main := .openingOut, driver := .refused,
          session := .start client d }

/-! ## Opening -/

/-- What is left to do before the loop. -/
def mainLeft (w : Lifecycle α) : Nat :=
  match w.main with
  | .making => 6
  | .makingOut => 5
  | .callingOut => 4
  | .openingOut => 3
  | .openedOut => 2
  | .openingIn => 1
  | _ => 0

def driverLeft (w : Lifecycle α) : Nat :=
  match w.driver with
  | .calling => 4
  | .openingIn => 3
  | .openedIn => 2
  | .openingOut => 1
  | _ => 0

/-- The states before the program of the driver has taken its first step, for the right file
names. -/
structure Opening (client : Client α) (d : Device) (dev2driv : Bool) (w : Lifecycle α) : Prop where
  session : w.session = .start client d
  driv2devFile : w.main ≠ .making → w.driv2dev = true
  dev2drivFile : w.main ≠ .making → w.main ≠ .makingOut → w.dev2driv = true
  leftOver : dev2driv = true → w.dev2driv = true
  notClosed : w.main ≠ .closed ∧ w.main ≠ .unlinked ∧ w.main ≠ .exited ∧ w.main ≠ .undefined
  driverNotClosed : ∀ a, w.driver ≠ .closed a
  mainOpened : w.main = .openedOut ∨ w.main = .openingIn ∨ w.main = .looping →
    w.driverReads = true
  mainLooping : w.main = .looping → w.driverWrites = true
  driverOpened : w.driver = .openedIn ∨ w.driver = .openingOut ∨ w.driver = .running →
    w.mainWrites = true
  driverRunning : w.driver = .running → w.mainReads = true
  refused : w.driver = .refused → dev2driv = false

/-- `connection_open` and `init_communication` have both come to their ends, or will never. -/
def Opened (client : Client α) (d : Device) (dev2driv : Bool) (w : Lifecycle α) : Prop :=
  w.driv2dev = true ∧ w.dev2driv = true ∧ w.session = .start client d ∧
    ((w.driver = .running ∧ (w.main = .openingIn ∨ w.main = .looping)) ∨
      (w.driver = .refused ∧ w.main = .openingOut ∧ dev2driv = false))

section Opening

variable {b : Build} {client : Client α} {d : Device} {dev2driv : Bool} {w w' : Lifecycle α}

theorem opening_start (driv2dev : Bool) :
    (start client d driv2dev dev2driv).Opening client d dev2driv := by
  constructor <;> simp [start]

theorem Opening.mainStep (h : w.Opening client d dev2driv) (hnot : ¬ w.Opened client d dev2driv)
    (hstep : w.mainStep b .dev2driv = some w') :
    w'.Opening client d dev2driv ∧ w'.driver = w.driver ∧ w'.mainLeft < w.mainLeft := by
  obtain ⟨hsession, hin, hout, hleft, hclosed, hdriver, hopened, hlooping, hdopened, hrunning,
    hrefused⟩ := h
  obtain ⟨x, y, main, driver, session⟩ := w
  cases main with
  | making | makingOut =>
      cases hstep
      refine ⟨?_, rfl, by simp [mainLeft]⟩
      constructor <;> simp_all [mainWrites, mainReads, driverReads, driverWrites]
  | callingOut =>
      have hfile : y = true := by simpa using hout
      simp only [Lifecycle.mainStep, hfile, if_true] at hstep
      cases hstep
      refine ⟨?_, rfl, by simp [mainLeft]⟩
      constructor <;> simp_all [mainWrites, mainReads, driverReads, driverWrites]
  | openingOut =>
      simp only [Lifecycle.mainStep, Option.ite_none_right_eq_some] at hstep
      obtain ⟨⟨-, hreads⟩, heq⟩ := hstep
      cases heq
      refine ⟨?_, rfl, by simp [mainLeft]⟩
      constructor <;> simp_all [mainWrites, mainReads, driverReads, driverWrites]
  | openedOut =>
      have hfile : x = true := by simpa using hin
      simp only [Lifecycle.mainStep, hfile, if_true] at hstep
      cases hstep
      refine ⟨?_, rfl, by simp [mainLeft]⟩
      constructor <;> simp_all [mainWrites, mainReads, driverReads, driverWrites]
  | openingIn =>
      simp only [Lifecycle.mainStep, Option.ite_none_right_eq_some] at hstep
      obtain ⟨⟨-, hwrites⟩, heq⟩ := hstep
      cases heq
      refine ⟨?_, rfl, by simp [mainLeft]⟩
      constructor <;> simp_all [mainWrites, mainReads, driverReads, driverWrites]
  | looping =>
      -- nothing has been sent yet
      subst hsession
      simp [Lifecycle.mainStep, Session.start, Session.deviceStep, pipeRead_nil,
        Session.driverClosed] at hstep
  | closed | unlinked | exited | undefined => simp at hclosed

theorem Opening.driverStep (h : w.Opening client d dev2driv)
    (hnot : ¬ w.Opened client d dev2driv) (hstep : w.driverStep b .dev2driv = some w') :
    w'.Opening client d dev2driv ∧ w'.main = w.main ∧ w'.driverLeft < w.driverLeft := by
  obtain ⟨hsession, hin, hout, hleft, hclosed, hdriver, hopened, hlooping, hdopened, hrunning,
    hrefused⟩ := h
  obtain ⟨x, y, main, driver, session⟩ := w
  cases driver with
  | calling =>
      cases y with
      | true =>
          cases hstep
          refine ⟨?_, rfl, by simp [driverLeft]⟩
          constructor <;> simp_all [mainWrites, mainReads, driverReads, driverWrites]
      | false =>
          cases hstep
          refine ⟨?_, rfl, by simp [driverLeft]⟩
          constructor <;> simp_all [mainWrites, mainReads, driverReads, driverWrites]
  | openingIn =>
      simp only [Lifecycle.driverStep, Option.ite_none_right_eq_some] at hstep
      obtain ⟨⟨-, hwrites⟩, heq⟩ := hstep
      cases heq
      refine ⟨?_, rfl, by simp [driverLeft]⟩
      constructor <;> simp_all [mainWrites, mainReads, driverReads, driverWrites]
  -- The firmware writes already: its two mkfifo are over, so the file the driver opens exists.
  | openedIn =>
      have hmain : main ≠ .making := by
        rintro rfl
        simp [mainWrites] at hdopened
      obtain rfl : x = true := hin hmain
      cases hstep
      refine ⟨?_, rfl, by simp [driverLeft]⟩
      constructor <;> simp_all [mainWrites, mainReads, driverReads, driverWrites]
  | openingOut =>
      simp only [Lifecycle.driverStep, Option.ite_none_right_eq_some] at hstep
      obtain ⟨⟨-, hreads⟩, heq⟩ := hstep
      cases heq
      refine ⟨?_, rfl, by simp [driverLeft]⟩
      constructor <;> simp_all [mainWrites, mainReads, driverReads, driverWrites]
  | running =>
      -- A driver that runs has met the second `open` of the firmware: the phase is over.
      refine absurd ?_ hnot
      have hreads := hrunning rfl
      cases main with
      | openingIn | looping =>
          exact ⟨hin (by simp), hout (by simp) (by simp), hsession, .inl ⟨rfl, by simp⟩⟩
      | making | makingOut | callingOut | openingOut | openedOut => simp [mainReads] at hreads
      | closed | unlinked | exited | undefined => simp at hclosed
  | refused => cases hstep
  | closed a => exact absurd rfl (hdriver a)

/-- With the right file names nobody waits for ever, unless the driver has been refused. -/
theorem Opening.move (h : w.Opening client d dev2driv) (hnot : ¬ w.Opened client d dev2driv) :
    ∃ w', Step b .dev2driv w w' := by
  obtain ⟨hsession, hin, hout, hleft, hclosed, hdriver, hopened, hlooping, hdopened, hrunning,
    hrefused⟩ := h
  obtain ⟨x, y, main, driver, session⟩ := w
  -- A process that waits in one of the blocking opens leaves a step to the other, which is on its
  -- way to the other end of the same file.
  cases main with
  | making | makingOut => exact ⟨_, .inl rfl⟩
  | callingOut =>
      obtain rfl : y = true := hout (by simp) (by simp)
      exact ⟨_, .inl rfl⟩
  | openedOut =>
      obtain rfl : x = true := hin (by simp)
      exact ⟨_, .inl rfl⟩
  | openingOut =>
      obtain rfl : x = true := hin (by simp)
      obtain rfl : y = true := hout (by simp) (by simp)
      cases driver with
      | calling => exact ⟨_, .inr rfl⟩
      | openingIn | openedIn | openingOut | running => exact ⟨_, .inl rfl⟩
      | refused =>
          exact absurd ⟨rfl, rfl, hsession, .inr ⟨rfl, rfl, hrefused rfl⟩⟩ hnot
      | closed a => exact absurd rfl (hdriver a)
  | openingIn =>
      obtain rfl : x = true := hin (by simp)
      have hreads := hopened (by simp)
      cases driver with
      | openingIn | openedIn => exact ⟨_, .inr rfl⟩
      | openingOut | running => exact ⟨_, .inl rfl⟩
      | calling | refused => cases hreads
      | closed a => exact absurd rfl (hdriver a)
  | looping =>
      have hwrites := hlooping rfl
      cases driver with
      | openingOut => exact ⟨_, .inr rfl⟩
      | running =>
          refine absurd ?_ hnot
          exact ⟨hin (by simp), hout (by simp) (by simp), hsession, .inl ⟨rfl, .inr rfl⟩⟩
      | calling | openingIn | openedIn | refused => cases hwrites
      | closed a => exact absurd rfl (hdriver a)
  | closed | unlinked | exited | undefined => simp at hclosed

theorem opened_inevitable (driv2dev : Bool) :
    Inevitable (Step b .dev2driv) (Opened client d dev2driv)
      (start client d driv2dev dev2driv) := by
  refine Inevitable.of_measure (fun w => w.mainLeft + w.driverLeft) (Opening client d dev2driv)
    (fun w h hnot => h.move hnot) (fun w w' h hnot hstep => ?_) (opening_start driv2dev)
  rcases hstep with hmain | hdriver
  · obtain ⟨hnext, hsame, hless⟩ := h.mainStep hnot hmain
    have hdriver : w'.driverLeft = w.driverLeft := by rw [driverLeft, driverLeft, hsame]
    exact ⟨hnext, by omega⟩
  · obtain ⟨hnext, hsame, hless⟩ := h.driverStep hnot hdriver
    have hmain : w'.mainLeft = w.mainLeft := by rw [mainLeft, mainLeft, hsame]
    exact ⟨hnext, by omega⟩

end Opening

/-! ## The session in the middle -/

/-- The session, as long as one does not look at whether the driver has closed its files. -/
def view (w : Lifecycle α) : Session α :=
  match w.driver with
  | .closed a => { w.session with driver := .ready (.done a) }
  | _ => w.session

/-- Both ends have been opened, or the firmware is about to find that they have. -/
structure Running (b : Build) (nbPins : BitVec 8) (w : Lifecycle α) : Prop where
  files : w.driv2dev = true ∧ w.dev2driv = true
  main : w.main = .openingIn ∨ w.main = .looping
  driver : w.driver = .running ∨ ∃ a, w.driver = .closed a ∧ w.session.driver = .gone
  lockstep : w.view.Lockstep b nbPins

/-- What is still to be done that cannot be seen in the session. -/
def unseen (w : Lifecycle α) : Nat :=
  (match w.main with
    | .openingIn => 1
    | _ => 0) +
  match w.driver with
  | .running => 1
  | _ => 0

section Running

variable {b : Build} {nbPins : BitVec 8} {w w' : Lifecycle α}

theorem view_running (h : w.driver = .running) : w.view = w.session := by
  rw [view, h]

theorem view_closed {a : α} (h : w.driver = .closed a) :
    w.view = { w.session with driver := .ready (.done a) } := by
  rw [view, h]

theorem mainStep_session {inName : FifoName} (hmain : w.main = .looping)
    (halive : w.session.device ≠ .ended) :
    w.mainStep b inName = (w.session.deviceStep b).map fun session => { w with session } := by
  rw [Lifecycle.mainStep, hmain]
  dsimp only
  split
  · rename_i hended
    exact absurd hended halive
  · rfl

theorem driverStep_session {inName : FifoName} (hdriver : w.driver = .running)
    (hdone : ∀ a, w.session.driver ≠ .ready (.done a)) :
    w.driverStep b inName = (w.session.driverStep b).map fun session => { w with session } := by
  rw [Lifecycle.driverStep, hdriver]
  dsimp only
  split
  · rename_i a hready
    exact absurd hready (hdone a)
  · rfl

theorem driverStep_close {inName : FifoName} (hdriver : w.driver = .running) {a : α}
    (hdone : w.session.driver = .ready (.done a)) :
    w.driverStep b inName =
      some { w with driver := .closed a, session := { w.session with driver := .gone } } := by
  rw [Lifecycle.driverStep, hdriver]
  dsimp only
  rw [hdone]

theorem lockstep_ready {s : Session α} {client : Client α} (h : s.Lockstep b nbPins)
    (hdriver : s.driver = .ready client) :
    ∃ d, Session.Awaits s.device d ∧ s.toDevice = [] ∧ s.toDriver = [] := by
  cases h with
  | idle _ _ hdevice => exact ⟨_, hdevice, rfl, rfl⟩
  | requested | answered | replied | dropped | crashed => cases hdriver

/-- When the driver has closed its files and the session can still go on, the device is on its way
back to `read`. -/
theorem Running.back (h : w.Running b nbPins) {a : α} (hdriver : w.driver = .closed a)
    (hmoves : ∃ t, Session.Step b w.view t) :
    ∃ d, w.session.device = .sending d [] := by
  have hlockstep := h.lockstep
  rw [view_closed hdriver] at hlockstep hmoves
  generalize w.session = s at *
  obtain ⟨d, hdevice, hin, hout⟩ := lockstep_ready hlockstep rfl
  obtain ⟨driver, device, toDevice, toDriver⟩ := s
  rcases hdevice with hdevice | hdevice
  · cases hdevice
    cases hin
    obtain ⟨t, hstep⟩ := hmoves
    exact absurd hstep (Session.stuck_of_none rfl (Session.deviceStep_empty (by simp)) t)
  · exact ⟨d, hdevice⟩

/-- Whoever can move in the session can move. -/
theorem Running.move (h : w.Running b nbPins) (hb : b.embedded = false)
    (hmoves : ∃ t, Session.Step b w.view t) : ∃ w', Step b .dev2driv w w' := by
  rcases h.main with hmain | hmain
  · refine ⟨{ w with main := .looping }, .inl ?_⟩
    have hwrites : w.driverWrites = true := by
      rcases h.driver with hdriver | ⟨a, hdriver, -⟩ <;> rw [driverWrites, hdriver]
    rw [Lifecycle.mainStep, hmain]
    exact if_pos ⟨rfl, hwrites⟩
  · rcases h.driver with hdriver | ⟨a, hdriver, -⟩
    · have halive := (h.lockstep.oneFrame hb).alive
      rw [view_running hdriver] at hmoves halive
      obtain ⟨t, hstep | hstep⟩ := hmoves
      · refine ⟨{ w with session := t }, .inr ?_⟩
        rw [driverStep_session hdriver, hstep, Option.map_some]
        intro a hdone
        rw [Session.driverStep, hdone] at hstep
        cases hstep
      · refine ⟨{ w with session := t }, .inl ?_⟩
        rw [mainStep_session hmain halive, hstep, Option.map_some]
    · obtain ⟨d, hdevice⟩ := h.back hdriver hmoves
      refine ⟨{ w with session := { w.session with device := .reading d } }, .inl ?_⟩
      rw [mainStep_session hmain (by simp [hdevice]), Session.deviceStep, hdevice, Option.map_some]

theorem Running.mainStep (h : w.Running b nbPins) (hb : b.embedded = false)
    (hmoves : ∃ t, Session.Step b w.view t) (hstep : w.mainStep b .dev2driv = some w') :
    w'.Running b nbPins ∧
      (Session.Step b w.view w'.view ∨ w'.view = w.view ∧ w'.unseen < w.unseen) := by
  -- Seen as a session, leaving the last open is no step at all, and what the loop does is a step of
  -- the session whether the driver still runs or has closed its files.
  rcases h.main with hmain | hmain
  · rw [Lifecycle.mainStep, hmain] at hstep
    obtain ⟨-, heq⟩ := Option.ite_none_right_eq_some.mp hstep
    cases heq
    refine ⟨⟨h.files, .inr rfl, h.driver, h.lockstep⟩, .inr ⟨rfl, ?_⟩⟩
    simp [unseen, hmain]
  · rcases h.driver with hdriver | ⟨a, hdriver, hgone⟩
    · have halive := (h.lockstep.oneFrame hb).alive
      have hview := view_running hdriver
      rw [hview] at halive
      rw [mainStep_session hmain halive] at hstep
      obtain ⟨s, hdevice, rfl⟩ := Option.map_eq_some_iff.mp hstep
      have hseen : ({ w with session := s } : Lifecycle α).view = s := view_running hdriver
      have hlockstep := h.lockstep
      rw [hview] at hlockstep
      refine ⟨⟨h.files, h.main, .inl hdriver, ?_⟩, .inl ?_⟩
      · rw [hseen]
        exact hlockstep.device hb hdevice
      · rw [hseen, hview]
        exact .inr hdevice
    -- After connection_close the only turn left to the loop is the one that goes back to read.
    · obtain ⟨d, hback⟩ := h.back hdriver hmoves
      have hview := view_closed hdriver
      have hlockstep := h.lockstep
      rw [mainStep_session hmain (by simp [hback]), Session.deviceStep, hback] at hstep
      cases hstep
      have hseen : ({ w with session := { w.session with device := .reading d } } :
          Lifecycle α).view = { w.session with driver := .ready (.done a), device := .reading d } :=
        view_closed hdriver
      have hdevice : Session.deviceStep b w.view =
          some { w.session with driver := .ready (.done a), device := .reading d } := by
        rw [hview, Session.deviceStep]
        dsimp only
        rw [hback]
      refine ⟨⟨h.files, h.main, .inr ⟨a, hdriver, hgone⟩, ?_⟩, .inl ?_⟩
      · rw [hseen]
        exact hlockstep.device hb hdevice
      · rw [hseen]
        exact .inr hdevice

theorem Running.driverStep (h : w.Running b nbPins)
    (hstep : w.driverStep b .dev2driv = some w') :
    w'.Running b nbPins ∧
      (Session.Step b w.view w'.view ∨ w'.view = w.view ∧ w'.unseen < w.unseen) := by
  rcases h.driver with hdriver | ⟨a, hdriver, -⟩
  · have hview := view_running hdriver
    -- connection_close after the last call is no step of the session, over for the driver.
    by_cases hdone : ∃ a, w.session.driver = .ready (.done a)
    · obtain ⟨a, hdone⟩ := hdone
      rw [driverStep_close hdriver hdone] at hstep
      cases hstep
      have hseen : ({ w with driver := .closed a, session := { w.session with driver := .gone } } :
          Lifecycle α).view = w.view := by
        rw [hview]
        show ({ w.session with driver := .ready (.done a) } : Session α) = w.session
        rw [← hdone]
      refine ⟨⟨h.files, h.main, .inr ⟨a, rfl, rfl⟩, ?_⟩, .inr ⟨hseen, ?_⟩⟩
      · rw [hseen]
        exact h.lockstep
      · rcases h.main with hmain | hmain <;> simp [unseen, hmain, hdriver]
    · rw [driverStep_session hdriver (fun a ha => hdone ⟨a, ha⟩)] at hstep
      obtain ⟨s, hnext, rfl⟩ := Option.map_eq_some_iff.mp hstep
      have hseen : ({ w with session := s } : Lifecycle α).view = s := view_running hdriver
      have hlockstep := h.lockstep
      rw [hview] at hlockstep
      refine ⟨⟨h.files, h.main, .inl hdriver, ?_⟩, .inl ?_⟩
      · rw [hseen]
        exact hlockstep.driver hnext
      · rw [hseen, hview]
        exact .inl hnext
  · rw [Lifecycle.driverStep, hdriver] at hstep
    cases hstep

end Running

/-! ## Closing -/

section Closing

variable {b : Build} {inName : FifoName} {P : Lifecycle α → Prop} {w t u : Lifecycle α}

theorem inevitable_of_main (hmain : w.mainStep b inName = some t)
    (hdriver : w.driverStep b inName = none) (h : Inevitable (Step b inName) P t) :
    Inevitable (Step b inName) P w := by
  refine .of_step (.inl hmain) (fun v hv => ?_) h
  rcases hv with hv | hv
  · exact Option.some.inj (hv.symm.trans hmain)
  · rw [hdriver] at hv
    cases hv

theorem inevitable_of_driver (hmain : w.mainStep b inName = none)
    (hdriver : w.driverStep b inName = some t) (h : Inevitable (Step b inName) P t) :
    Inevitable (Step b inName) P w := by
  refine .of_step (.inr hdriver) (fun v hv => ?_) h
  rcases hv with hv | hv
  · rw [hmain] at hv
    cases hv
  · exact Option.some.inj (hv.symm.trans hdriver)

theorem inevitable_of_either (hmain : w.mainStep b inName = some t)
    (hdriver : w.driverStep b inName = some u) (ht : Inevitable (Step b inName) P t)
    (hu : Inevitable (Step b inName) P u) : Inevitable (Step b inName) P w := by
  refine .later ⟨t, .inl hmain⟩ fun v hv => ?_
  rcases hv with hv | hv
  · rw [hmain] at hv
    cases hv
    exact ht
  · rw [hdriver] at hv
    cases hv
    exact hu

variable {d : Device}

/-- The device finds the end of its FIFO, and the firmware removes both. -/
theorem inevitable_of_closed (hb : b.embedded = false) (a : α)
    (h : P ⟨false, false, .exited, .closed a, ⟨.gone, .ended, [], []⟩⟩) :
    Inevitable (Step b .dev2driv) P
      ⟨true, true, .looping, .closed a, ⟨.gone, .reading d, [], []⟩⟩ := by
  have hends : Session.deviceStep b (⟨.gone, .reading d, [], []⟩ : Session α) =
      some ⟨.gone, .ended, [], []⟩ := by
    simp [Session.deviceStep, pipeRead_nil, Session.driverClosed, hb]
  refine inevitable_of_main (t := ⟨true, true, .looping, .closed a, ⟨.gone, .ended, [], []⟩⟩)
    ?_ rfl ?_
  · rw [mainStep_session rfl (by simp), hends]
    rfl
  · exact inevitable_of_main rfl rfl (inevitable_of_main rfl rfl
      (inevitable_of_main rfl rfl (.now h)))

/-- The program has come to its end. -/
theorem inevitable_of_done (hb : b.embedded = false) {nbPins : BitVec 8} (hw : w.Running b nbPins)
    {a : α} (hview : w.view = .start (.done a) d)
    (h : P ⟨false, false, .exited, .closed a, ⟨.gone, .ended, [], []⟩⟩) :
    Inevitable (Step b .dev2driv) P w := by
  have hclosed := inevitable_of_closed (d := d) hb a h
  -- Which of the two goes first does not matter: the firmware may still be in its last open.
  have hclosing : Inevitable (Step b .dev2driv) P
      ⟨true, true, .openingIn, .closed a, ⟨.gone, .reading d, [], []⟩⟩ :=
    inevitable_of_main rfl rfl hclosed
  have hwaits : Session.deviceStep b (.start (.done a) d : Session α) = none :=
    Session.deviceStep_empty (by simp)
  have hlooping : Inevitable (Step b .dev2driv) P
      ⟨true, true, .looping, .running, .start (.done a) d⟩ := by
    refine inevitable_of_driver ?_ rfl hclosed
    rw [mainStep_session rfl (by simp [Session.start]), hwaits]
    rfl
  obtain ⟨x, y, main, driver, session⟩ := w
  obtain ⟨⟨rfl, rfl⟩, hmain, hdriver, -⟩ := hw
  rcases hdriver with hdriver | ⟨a', hdriver, hgone⟩
  · cases hdriver
    obtain rfl : session = .start (.done a) d := hview
    rcases hmain with hmain | hmain
    · cases hmain
      exact inevitable_of_either rfl rfl hlooping hclosing
    · cases hmain
      exact hlooping
  · cases hdriver
    obtain ⟨driver, device, toDevice, toDriver⟩ := session
    cases hgone
    cases hview
    rcases hmain with hmain | hmain
    · cases hmain
      exact hclosing
    · cases hmain
      exact hclosed

/-- The session has come to an end that is not the end of the program. -/
theorem inevitable_of_broken {s : Session α} {nbPins : BitVec 8} (hw : w.Running b nbPins)
    (hview : w.view = s) (hstuck : Stuck (Session.Step b) s)
    (hdone : ∀ a, s.driver ≠ .ready (.done a)) (h : P ⟨true, true, .looping, .running, s⟩) :
    Inevitable (Step b .dev2driv) P w := by
  have hdriverStep : s.driverStep b = none :=
    Option.eq_none_iff_forall_ne_some.mpr fun t ht => hstuck t (.inl ht)
  obtain ⟨x, y, main, driver, session⟩ := w
  obtain ⟨⟨rfl, rfl⟩, hmain, hdriver, -⟩ := hw
  rcases hdriver with hdriver | ⟨a, hdriver, -⟩
  · cases hdriver
    obtain rfl : session = s := hview
    rcases hmain with hmain | hmain
    · cases hmain
      refine inevitable_of_main rfl ?_ (.now h)
      rw [driverStep_session rfl hdone, hdriverStep]
      rfl
    · cases hmain
      exact .now h
  · cases hdriver
    exact absurd (congrArg Session.driver hview).symm (hdone a)

end Closing

section Whole

variable {b : Build} {nbPins : BitVec 8} {client : Client α} {d : Device}

/-- The ends are ends: neither process can move. -/
theorem Finished.stuck {dev2driv : Bool} {w : Lifecycle α} (h : Finished b client d dev2driv w) :
    Stuck (Step b .dev2driv) w := by
  rintro t (hmain | hdriver)
  · cases h with
    | completed | refused => cases hmain
    | @broken s hend hdone =>
        have halive : s.device ≠ .ended := by
          cases hend <;> simp [Session.start]
        obtain ⟨u, hu, -⟩ :=
          Option.map_eq_some_iff.mp ((mainStep_session rfl halive).symm.trans hmain)
        exact hend.stuck u (.inr hu)
  · cases h with
    | completed | refused => cases hdriver
    | broken hend hdone =>
        obtain ⟨u, hu, -⟩ :=
          Option.map_eq_some_iff.mp ((driverStep_session rfl hdone).symm.trans hdriver)
        exact hend.stuck u (.inl hu)

/-- Whatever the interleaving and whatever files had been left over, two processes with the right
file names come to one of these ends, in which neither can move: both have exited, and the
program has had the result of its exchanges; or one of them is at fault; or the driver called
`connection_open` too early. -/
theorem lifecycle_inevitable (hb : b.embedded = false) (hd : Reachable b nbPins d)
    (hfits : client.FitsBuild b) (driv2dev dev2driv : Bool) :
    Inevitable (Step b .dev2driv)
      (fun w => Finished b client d dev2driv w ∧ Stuck (Step b .dev2driv) w)
      (start client d driv2dev dev2driv) := by
  -- First the opens meet, then the session comes to its end, and from there the ends of the two
  -- processes follow.
  obtain ⟨s, hend, hstuck, hsession⟩ := session_inevitable hb hd hfits
  refine (opened_inevitable driv2dev).trans fun w hw => ?_
  obtain ⟨hin, hout, hstart, ⟨hdriver, hmain⟩ | ⟨hdriver, hmain, hfile⟩⟩ := hw
  · have hview : w.view = .start client d := by rw [view_running hdriver, hstart]
    have hrunning : w.Running b nbPins := by
      refine ⟨⟨hin, hout⟩, hmain, .inl hdriver, ?_⟩
      rw [hview]
      exact .idle hfits hd (.inl rfl)
    refine (hsession.lift view (Running b nbPins) unseen ?_ ?_ hrunning hview).trans ?_
    · exact fun w hw hmoves => hw.move hb hmoves
    · rintro w w' hw hmoves (hstep | hstep)
      · exact hw.mainStep hb hmoves hstep
      · exact hw.driverStep hstep
    · rintro w ⟨hview, hw⟩
      by_cases hdone : ∃ a, s.driver = .ready (.done a)
      · obtain ⟨a, hdone⟩ := hdone
        cases hend with
        | completed hrun =>
            have hfin : Finished b client d dev2driv _ := .completed hrun
            exact inevitable_of_done hb hw hview ⟨hfin, hfin.stuck⟩
        | driverFault | blocked | deviceFault => cases hdone
      · have hfin : Finished b client d dev2driv _ := .broken hend fun a ha => hdone ⟨a, ha⟩
        exact inevitable_of_broken hw hview hstuck (fun a ha => hdone ⟨a, ha⟩) ⟨hfin, hfin.stuck⟩
  -- The driver was there before its file: it is refused, and the firmware waits in its first open.
  · obtain ⟨x, y, main, driver, session⟩ := w
    cases hin
    cases hout
    cases hstart
    cases hdriver
    cases hmain
    have hfin : Finished b client d dev2driv _ := .refused hfile
    exact .now ⟨hfin, hfin.stuck⟩

/-- Two requests with data, where one of the files has been left over from an earlier run. -/
theorem lifecycle_inevitable_write :
    Inevitable (Step hostBuild .dev2driv)
      (fun w => Finished hostBuild pingThenWrite (initialDevice hostBuild firmwareNbPins) false w ∧
        Stuck (Step hostBuild .dev2driv) w)
      (start pingThenWrite (initialDevice hostBuild firmwareNbPins) true false) := by
  have hd : Reachable hostBuild firmwareNbPins (initialDevice hostBuild firmwareNbPins) :=
    .init (initDeviceContent_eq _ _)
  exact lifecycle_inevitable rfl hd (pingThenWrite_fits hostBuild) true false

/-! ## Exchanged file names -/

/-- The states of two processes of which the driver has exchanged the names of its files. -/
structure Swapped (client : Client α) (d : Device) (driv2dev : Bool) (w : Lifecycle α) : Prop where
  session : w.session = .start client d
  main : w.main = .making ∨ w.main = .makingOut ∨ (w.main = .callingOut ∧ w.dev2driv = true) ∨
    w.main = .openingOut
  driver : w.driver = .calling ∨ w.driver = .openingIn ∨ w.driver = .refused
  leftOver : driv2dev = true → w.driv2dev = true
  refused : w.driver = .refused → driv2dev = false

/-- Each of the two waits in its first `open`, or the driver has been refused. -/
def Apart (client : Client α) (d : Device) (driv2dev : Bool) (w : Lifecycle α) : Prop :=
  w.session = .start client d ∧ w.main = .openingOut ∧
    (w.driver = .openingIn ∨ w.driver = .refused ∧ driv2dev = false)

theorem Swapped.mainStep {driv2dev : Bool} {w w' : Lifecycle α}
    (h : w.Swapped client d driv2dev) (hstep : w.mainStep b .driv2dev = some w') :
    w'.Swapped client d driv2dev ∧ w'.driver = w.driver ∧ w'.mainLeft < w.mainLeft := by
  obtain ⟨x, y, main, driver, session⟩ := w
  obtain ⟨hsession, hmain, hdriver, hleft, hrefused⟩ := h
  rcases hmain with hmain | hmain | ⟨hmain, hfile⟩ | hmain
  · cases hmain
    cases hstep
    exact ⟨⟨hsession, .inr (.inl rfl), hdriver, fun _ => rfl, hrefused⟩, rfl, by simp [mainLeft]⟩
  · cases hmain
    cases hstep
    exact ⟨⟨hsession, .inr (.inr (.inl ⟨rfl, rfl⟩)), hdriver, hleft, hrefused⟩, rfl,
      by simp [mainLeft]⟩
  · cases hmain
    cases hfile
    cases hstep
    exact ⟨⟨hsession, .inr (.inr (.inr rfl)), hdriver, hleft, hrefused⟩, rfl, by simp [mainLeft]⟩
  · cases hmain
    cases hstep

theorem Swapped.driverStep {driv2dev : Bool} {w w' : Lifecycle α}
    (h : w.Swapped client d driv2dev) (hstep : w.driverStep b .driv2dev = some w') :
    w'.Swapped client d driv2dev ∧ w'.main = w.main ∧ w'.driverLeft < w.driverLeft := by
  obtain ⟨x, y, main, driver, session⟩ := w
  obtain ⟨hsession, hmain, hdriver, hleft, hrefused⟩ := h
  rcases hdriver with hdriver | hdriver | hdriver
  · cases hdriver
    cases x with
    | true =>
        cases hstep
        exact ⟨⟨hsession, hmain, .inr (.inl rfl), hleft, by simp⟩, rfl, by simp [driverLeft]⟩
    | false =>
        cases hstep
        exact ⟨⟨hsession, hmain, .inr (.inr rfl), hleft, by simpa using hleft⟩, rfl,
          by simp [driverLeft]⟩
  · cases hdriver
    cases hstep
  · cases hdriver
    cases hstep

/-- A driver that has exchanged the names of the two files: no run gets past the first `open` of
either process. -/
theorem lifecycle_swapped (client : Client α) (d : Device) (driv2dev dev2driv : Bool) :
    Inevitable (Step b .driv2dev)
      (fun w => Apart client d driv2dev w ∧ Stuck (Step b .driv2dev) w)
      (start client d driv2dev dev2driv) := by
  have happart : Inevitable (Step b .driv2dev) (Apart client d driv2dev)
      (start client d driv2dev dev2driv) := by
    refine Inevitable.of_measure (fun w => w.mainLeft + w.driverLeft) (Swapped client d driv2dev)
      (fun w h hnot => ?_) (fun w w' h _ hstep => ?_) ?_
    · obtain ⟨x, y, main, driver, session⟩ := w
      obtain ⟨hsession, hmain, hdriver, hleft, hrefused⟩ := h
      rcases hmain with hmain | hmain | ⟨hmain, hfile⟩ | hmain
      · cases hmain
        exact ⟨_, .inl rfl⟩
      · cases hmain
        exact ⟨_, .inl rfl⟩
      · cases hmain
        cases hfile
        exact ⟨_, .inl rfl⟩
      · rcases hdriver with hdriver | hdriver | hdriver
        · cases hdriver
          cases x <;> exact ⟨_, .inr rfl⟩
        · exact absurd ⟨hsession, hmain, .inl hdriver⟩ hnot
        · exact absurd ⟨hsession, hmain, .inr ⟨hdriver, hrefused hdriver⟩⟩ hnot
    · rcases hstep with hmain | hdriver
      · obtain ⟨hnext, hsame, hless⟩ := h.mainStep hmain
        have hdriver : w'.driverLeft = w.driverLeft := by rw [driverLeft, driverLeft, hsame]
        exact ⟨hnext, by omega⟩
      · obtain ⟨hnext, hsame, hless⟩ := h.driverStep hdriver
        have hmain : w'.mainLeft = w.mainLeft := by rw [mainLeft, mainLeft, hsame]
        exact ⟨hnext, by omega⟩
    · exact ⟨rfl, .inl rfl, .inl rfl, id, by intro h; cases h⟩
  refine happart.mono fun w hw => ⟨hw, ?_⟩
  obtain ⟨-, hmain, hdriver⟩ := hw
  rintro t (hstep | hstep)
  · rw [Lifecycle.mainStep, hmain] at hstep
    cases hstep
  · rcases hdriver with hdriver | ⟨hdriver, -⟩
    · rw [Lifecycle.driverStep, hdriver] at hstep
      cases hstep
    · rw [Lifecycle.driverStep, hdriver] at hstep
      cases hstep

end Whole

end Lifecycle

end PinProtocol
