import Keyfile.Log.Pattern

namespace Keyfile

namespace FieldValue

/-- The text ends a number after its digits: there is an exponent, or nothing. -/
def isExponent : Text → Bool
  | [] => true
  | e :: t =>
    let digits := if t.head? = some '+' || t.head? = some '-' then t.tail else t
    (e = 'e' || e = 'E') && !digits.isEmpty && digits.all Char.isDigit

def isNumber (t : Text) : Bool :=
  let whole := t.takeWhile Char.isDigit
  match t.drop whole.length with
  | '.' :: rest =>
    let fraction := rest.takeWhile Char.isDigit
    !(whole ++ fraction).isEmpty && isExponent (rest.drop fraction.length)
  | rest =>
    if whole.isEmpty then
      [chars "inf", chars "infinity", chars "nan"].contains (t.map Char.toLower)
    else isExponent rest

/-- The text can be asked of a value. Numbers are patterns but for those with a plus sign. -/
def isValid : Text → Bool
  | '+' :: t => isNumber t || Pattern.isPattern ('+' :: t)
  | t => Pattern.isPattern t

end FieldValue

end Keyfile
