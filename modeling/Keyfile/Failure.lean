import Keyfile.Text.Quoted
import Keyfile.Text.Utf8

namespace Keyfile

inductive DiskFault where
  | notFound
  | isDirectory
  | notDirectory
  | nameTooLong
  | nulInPath
deriving DecidableEq, Repr

def DiskFault.message : DiskFault → Text
  | notFound => chars "No such file or directory (os error 2)"
  | isDirectory => chars "Is a directory (os error 21)"
  | notDirectory => chars "Not a directory (os error 20)"
  | nameTooLong => chars "File name too long (os error 36)"
  | nulInPath => chars "file name contained an unexpected NUL byte"

/-- Why an operation fails: the disk refuses, a line is malformed, a path has no text, or a value
or name has a character that it may not have there. -/
inductive Failure where
  | disk (fault : DiskFault)
  | malformed (file : Bytes) (line : Nat)
  | pathNotText
  | badValue (character : Char) (value : Text)
  | badName (character : Char) (name : Text)
deriving DecidableEq, Repr

def Failure.line? : Failure → Option Nat
  | malformed _ line => some line
  | _ => none

def Failure.message : Failure → Text
  | disk fault => chars "IO error: " ++ fault.message
  | malformed file line =>
    chars "Syntax error found in " ++ decode file ++ chars " on line " ++ Text.ofNat line
  | pathNotText => chars "Serialization error: path contains invalid UTF-8 characters"
  | badValue c value =>
    chars "Invalid character found in value: " ++ quoteChar c ++ chars " found in " ++
      quoteText value
  | badName c name =>
    chars "Invalid character found in name: " ++ quoteChar c ++ chars " found in " ++
      quoteText name

end Keyfile
