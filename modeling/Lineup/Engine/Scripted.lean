import Lineup.Engine
/-!
# Scripted — answers set down beforehand

The scripted engine looks at no program: its answers follow a list, over and over.  Its state is the number of times it
has been asked.
-/
namespace Lineup.Engine

def scriptedAnswer (script : List Answer) (calls : Nat) : Answer :=
  script.getD (calls % script.length) (.failed .notSolved none)

def scripted (script : List Answer) : StatefulEngine Nat :=
  ⟨fun calls _ => (scriptedAnswer script calls, calls + 1)⟩

end Lineup.Engine
