/-!
# Base64

Bytes in groups of three are written as four letters of the standard alphabet; an incomplete last
group is filled up with equals signs.
-/

namespace SnapshotAnalytics.Text

def base64Letter (n : Nat) : Char :=
  if n < 26 then Char.ofNat ('A'.toNat + n)
  else if n < 52 then Char.ofNat ('a'.toNat + (n - 26))
  else if n < 62 then Char.ofNat ('0'.toNat + (n - 52))
  else if n = 62 then '+'
  else '/'

/-- The four letters of a number of 24 bits. -/
def base64Group (n : Nat) : List Char :=
  [base64Letter (n / 262144 % 64), base64Letter (n / 4096 % 64), base64Letter (n / 64 % 64),
    base64Letter (n % 64)]

def base64 : List UInt8 → List Char
  | [] => []
  | [a] => (base64Group (a.toNat * 65536)).take 2 ++ ['=', '=']
  | [a, b] => (base64Group (a.toNat * 65536 + b.toNat * 256)).take 3 ++ ['=']
  | a :: b :: c :: rest =>
    base64Group (a.toNat * 65536 + b.toNat * 256 + c.toNat) ++ base64 rest

end SnapshotAnalytics.Text
