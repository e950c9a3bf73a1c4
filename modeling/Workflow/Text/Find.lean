/-!
Finding and replacing texts inside texts.
-/
namespace Workflow.Text

def occursIn (needle : List Char) : List Char → Bool
  | [] => needle.isEmpty
  | c :: rest => needle.isPrefixOf (c :: rest) || occursIn needle rest

def indexOf? (needle : List Char) : List Char → Option Nat
  | [] => if needle.isEmpty then some 0 else none
  | c :: rest =>
    if needle.isPrefixOf (c :: rest) then some 0 else (indexOf? needle rest).map (· + 1)

/-- The pieces between the occurrences of a text that is not empty; `skip` characters of an
occurrence are still to be dropped. -/
def cutAt (needle : List Char) : List Char → Nat → List (List Char)
  | [], _ => [[]]
  | c :: rest, skip =>
    match skip with
    | skip + 1 => cutAt needle rest skip
    | 0 =>
      if needle.isPrefixOf (c :: rest) then [] :: cutAt needle rest (needle.length - 1)
      else match cutAt needle rest 0 with
        | [] => [[c]]
        | piece :: pieces => (c :: piece) :: pieces

/-- The pieces between the occurrences of a text; the empty text occurs between all characters. -/
def pieces (needle s : List Char) : List (List Char) :=
  if needle.isEmpty then [] :: s.map ([·]) ++ [[]] else cutAt needle s 0

def replace (needle replacement s : List Char) : List Char :=
  replacement.intercalate (pieces needle s)

/-- The pieces of a text, all after the first `n - 1` of them in one. -/
def piecesUpTo (needle : List Char) (n : Nat) (s : List Char) : List (List Char) :=
  let all := pieces needle s
  if all.length ≤ n then all
  else all.take (n - 1) ++ [needle.intercalate (all.drop (n - 1))]

end Workflow.Text
