/-!
# Pad — setting a text in a column

A column is so many characters wide, a character being one Unicode scalar value.  A text that is too long for its column
is never cut: it takes the room that it needs.
-/
namespace Lineup.Text

def padRight (width : Nat) (s : String) : String :=
  s ++ String.ofList (List.replicate (width - s.length) ' ')

def padLeft (width : Nat) (s : String) : String :=
  String.ofList (List.replicate (width - s.length) ' ') ++ s

theorem length_padRight (width : Nat) (s : String) : (padRight width s).length = max width s.length := by
  simp only [padRight, String.length_append, String.length_ofList, List.length_replicate]; omega

theorem length_padLeft (width : Nat) (s : String) : (padLeft width s).length = max width s.length := by
  simp only [padLeft, String.length_append, String.length_ofList, List.length_replicate]; omega

end Lineup.Text
