/-!
# Spans of time

`Duration.text n` shows `n` milliseconds: in seconds from one second on, with as many decimals as
it takes, and in milliseconds below.
-/

namespace LedgerClient.Text.Duration

/-- three decimals without zeros at the end -/
def decimals (thousandths : Nat) : List Char :=
  let ds := [thousandths / 100, thousandths / 10 % 10, thousandths % 10].map Nat.digitChar
  (ds.reverse.dropWhile (· = '0')).reverse

def text (n : Nat) : String :=
  if n = 0 then "0ns"
  else if n < 1000 then toString n ++ "ms"
  else
    let ds := decimals (n % 1000)
    toString (n / 1000) ++ (if ds = [] then "" else "." ++ String.ofList ds) ++ "s"

end LedgerClient.Text.Duration
