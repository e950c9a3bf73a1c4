import Workflow.Text.Utf8

/-!
Base 64: every three bytes as four characters. Bytes that are missing at the end count as zeros, and
characters that stand for nothing else are equals signs.
-/
namespace Workflow.Text

/-- The character of a number below 64. -/
def base64Char (n : Nat) : Char :=
  if n < 26 then Char.ofNat (65 + n)
  else if n < 52 then Char.ofNat (71 + n)
  else if n < 62 then Char.ofNat (n - 4)
  else if n = 62 then '+'
  else '/'

/-- The four characters of three bytes, as many as are asked for. -/
def base64Group (a b c : UInt8) (count : Nat) : List Char :=
  let n := (a.toNat * 256 + b.toNat) * 256 + c.toNat
  let characters := [n / 64 / 64 / 64, n / 64 / 64 % 64, n / 64 % 64, n % 64].map base64Char
  characters.take count ++ List.replicate (4 - count) '='

def base64 : List UInt8 → List Char
  | [] => []
  | [a] => base64Group a 0 0 2
  | [a, b] => base64Group a b 0 3
  | a :: b :: c :: rest => base64Group a b c 4 ++ base64 rest

example : [[0x4d], [0x4d, 0xff], [0x4d, 0xff, 0xfb]].map base64 =
    ["TQ==".toList, "Tf8=".toList, "Tf/7".toList] := by decide

end Workflow.Text
