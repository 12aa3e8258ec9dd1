import Nucleus.Machine.Kernel
import Nucleus.Userland.Program

/-!
A session: a kernel with the boot programs running on it.  The program of the
current process takes turns until nobody can run; then the clock goes on to the
next deadline.
-/

namespace Nucleus

structure Session where
  kernel : Kernel
  /-- Where the program of each process stands. -/
  programs : List (ProcessId × Program)

namespace Session

def setKernel (session : Session) (kernel : Kernel) : Session :=
  { session with kernel := kernel }

def currentId? (session : Session) : Option ProcessId :=
  session.kernel.computer.exec.table.currentId?

private def announce (boot : BootProgram) (id : ProcessId) : Log.Record :=
  ⟨.info, Log.Target.bootPrograms,
    ["demo: ", boot.name, " is pid ", id.text, " (", boot.mode.name, ")"]⟩

def launch (session : Session) (boot : BootProgram) :
    Except ProcessError Unit × Session :=
  let (outcome, computer) := session.kernel.computer.spawn boot.entry
    BootProgram.stackSize boot.mode boot.name
  match outcome with
  | .error error => (.error error, session.setKernel
      (session.kernel.setComputer computer))
  | .ok id =>
      let computer := computer.report (announce boot id)
      let focused :=
        if boot.hasKeyboard then computer.focus id else .ok computer
      let launched (computer : Computer Board) : Session :=
        ⟨session.kernel.setComputer computer,
          session.programs ++ [(id, boot.program)]⟩
      match focused with
      | .error error => (.error error, launched computer)
      | .ok computer => (.ok (), launched computer)

/-- Creates the processes of boot programs, until one is refused. -/
def launchAll (session : Session) :
    List BootProgram → Except ProcessError Unit × Session
  | [] => (.ok (), session)
  | boot :: rest =>
      match session.launch boot with
      | (.error error, session) => (.error error, session)
      | (.ok _, session) => session.launchAll rest

def begin (kernel : Kernel) (threshold : Log.Threshold) :
    Except ProcessError Unit × Session :=
  let informed := kernel.modifyBoard fun board =>
    { board with threshold := some .info }
  let (outcome, session) := launchAll ⟨informed, []⟩ BootProgram.all
  let kernel := session.kernel.modifyBoard fun board =>
    { board with threshold := threshold }
  (outcome, session.setKernel (kernel.setComputer kernel.computer.start))

structure CallMade where
  id : ProcessId
  invocation : Invocation

inductive Pause
  | idle
  | halted
  deriving DecidableEq, Repr

def takeTurn? (session : Session) :
    Option (CallMade × Resumption × Session) := do
  let id ← session.currentId?
  let program ← session.programs.lookup id
  let context := session.kernel.computer.frame.context
  let turn := program.turn
    { reply := context.result
      memory := session.kernel.board.memory
      stackPointer := context.stackPointer.toNat }
  let prepared := session.kernel.modifyBoard fun board =>
    { board with memory := turn.memory }
  let (resumption, kernel) := prepared.onCall turn.invocation.call.number
    turn.invocation.arguments
  some (⟨id, turn.invocation⟩, resumption,
    ⟨kernel, session.programs.map fun entry =>
      if entry.1 = id then (id, turn.next) else entry⟩)

def run (session : Session) : Nat → List CallMade × Option Pause × Session
  | 0 => ([], none, session)
  | turns + 1 =>
      match session.takeTurn? with
      | none => ([], some .idle, session)
      | some (made, .halts, session) => ([made], some .halted, session)
      | some (made, .continues, session) =>
          let (others, pause, session) := session.run turns
          (made :: others, pause, session)

/-- Turns in a row before the clock goes on all the same. -/
def patience : Nat := 1000

/-- Runs until idle and goes on to the next deadline, a number of times or
until no deadline is set; counts the calls and the deadlines. -/
def drive (session : Session) (calls reached : Nat) :
    Nat → Nat × Nat × Session
  | 0 => (calls, reached, session)
  | rounds + 1 =>
      let (made, _, rested) := session.run patience
      let calls := calls + made.length
      match rested.kernel.board.deadline with
      | none => (calls, reached, rested)
      | some deadline =>
          let late := rested.kernel.modifyBoard fun board =>
            { board with now := deadline }
          let woken := late.interrupt (some Platform.qemuVirt.lines.sleep)
          (rested.setKernel woken).drive calls (reached + 1) rounds

/-- Ends a process from outside; the current one cannot be ended this way. -/
def terminate (session : Session) (id : ProcessId) :
    Except ProcessError Session :=
  (session.kernel.computer.terminate id).map fun computer =>
    session.setKernel (session.kernel.setComputer computer)

end Session

end Nucleus
