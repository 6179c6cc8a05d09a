import CaretLayout.Agent.Inventory
import CaretLayout.Agent.Live
import CaretLayout.Settings

/-!
# Listing layouts

The command starts the agent, asks it for its layouts and waits for the first decisive reply.  It
fails when the agent cannot be started, ends before it has answered, or takes too long.  An agent that
has ended is listened to for a short time more, since what it printed may be read after its end is
known.
-/

namespace CaretLayout

/-- The agent of the settings, before it is started. -/
def Settings.newAgent (s : Settings) (launch : Launcher) (d : Disk) (working : List String) :
    LiveAgent where
  program := launch d working s.agent.path s.agentArgs
  path := s.agent.path
  args := s.agentArgs

namespace Inventory

/-- The answer that a notice gives, if it is decisive. -/
def ofNotice? : Notice → Option (Except Failure (List LayoutInfo))
  | .line text => ofLine? text
  | _ => none

/-- How long an agent that has ended is still listened to, in milliseconds. -/
def exitDrain : Nat := 100

/-- Until when an answer is waited for, and how the agent has failed if there is none by then. -/
structure Wait where
  deadline : Nat
  failure : Failure

/-- Hearing at a time that the agent has ended cuts the wait short. -/
def Wait.after (w : Wait) (time : Nat) : Notice → Wait
  | .ended code =>
    if time + exitDrain < w.deadline then ⟨time + exitDrain, .agentExited code⟩ else w
  | _ => w

/-- Waits for the answer of an agent that was asked, for a number of notices at most. -/
def await : Nat → Wait → LiveAgent → Except Failure (List LayoutInfo)
  | 0, w, _ => .error w.failure
  | limit + 1, w, a =>
    match a.hear with
    | none => .error w.failure
    | some (a, notice) =>
      if w.deadline ≤ a.now then .error w.failure
      else
        match ofNotice? notice with
        | some answer => answer
        | none => await limit (w.after a.now notice) a

/-- Asks an agent for its layouts and waits for the answer. -/
def ask (a : LiveAgent) (milliseconds : Nat) : Except Failure (List LayoutInfo) :=
  let started := a.start
  match started.startFault? with
  | some fault => .error (.startingAgent a.path fault)
  | none =>
    let asked := started.send .list
    await asked.noticesLeft ⟨a.now + milliseconds, .agentSilent milliseconds⟩ asked

end Inventory

end CaretLayout
