import TemplateTokens.Guarded.Machine

/-!
# The loops of a scan

A scan has a loop over what stands between markers, and in it one over the stop bytes of an output
and one over the tags in a raw block. A machine has no loops, only turns. An iteration of a loop is
the turns from one place where the condition of the loop is met up to the next place where it is
looked at, or up to the place where the loop is left for what encloses it.
-/

namespace TemplateTokens

/-- A loop of a scan. -/
inductive Loop where
  /-- Over what stands between markers: a text, an output, or a tag with the raw block it opens. -/
  | main
  /-- Over the stop bytes of an output, the last of which may take the scan through a tag. -/
  | output
  /-- Over the tag openers in a raw block, the last of which takes the scan through a tag. -/
  | raw
deriving DecidableEq

/-- Whether an iteration of a loop goes on in a phase that one of its turns leads to. -/
def Loop.goesOn : Loop → Phase → Bool
  | .main, phase => phase ≠ .markup
  | .output, .tag _ _ => true
  | .raw, .tag _ _ => true
  | _, _ => false

namespace Machine

/-- A machine stands where a loop is entered or goes round once more. -/
inductive Heads : Loop → Machine → Prop where
  /-- Between markers there are bytes left. -/
  | main {machine : Machine} (phase : machine.phase = .markup)
      (remaining : machine.cursor.atEnd = false) : Heads .main machine
  /-- In an output there are bytes left. -/
  | output {machine : Machine} {start : Nat} {quoting : Output.Quoting}
      (phase : machine.phase = .output start quoting)
      (remaining : machine.cursor.atEnd = false) : Heads .output machine
  /-- In a raw block there is a tag opener left. -/
  | raw {machine : Machine} {start : Nat} (phase : machine.phase = .raw start)
      (remaining : Bytes.tagOpener <:+: machine.cursor.rest) : Heads .raw machine

/-- The turns of an iteration so far. -/
inductive Lap (loop : Loop) : Machine → Machine → Prop where
  /-- An iteration begins with a turn. -/
  | begin {head next : Machine} (heads : head.Heads loop)
      (taken : head.turn = .ok (.running next)) : Lap loop head next
  /-- An iteration that goes on takes another turn. -/
  | further {head machine next : Machine} (lap : Lap loop head machine)
      (goesOn : loop.goesOn machine.phase = true) (taken : machine.turn = .ok (.running next)) :
      Lap loop head next

/-- An iteration from its first turn to its last. -/
structure Iteration (loop : Loop) (head next : Machine) : Prop where
  /-- The turns lead from the one machine to the other. -/
  lap : Lap loop head next
  /-- No turn is left to take. -/
  complete : loop.goesOn next.phase = false

/-- The machines behind a number of iterations of the main loop. -/
inductive Passed (template : Template) : Nat → Machine → Prop where
  /-- The scan begins. -/
  | atStart : Passed template 0 (.atStart template)
  /-- The main loop goes round once more. -/
  | iteration {count : Nat} {head next : Machine} (passed : Passed template count head)
      (iterates : Iteration .main head next) : Passed template (count + 1) next

/-- A machine is behind a number of iterations of the main loop, or in the next one. -/
inductive Amid (template : Template) (count : Nat) (machine : Machine) : Prop where
  /-- The machine stands between two iterations. -/
  | between (passed : Passed template count machine)
  /-- The machine is in an iteration. -/
  | within {head : Machine} (passed : Passed template count head) (lap : Lap .main head machine)
      (goesOn : Loop.main.goesOn machine.phase = true)

end Machine

end TemplateTokens
