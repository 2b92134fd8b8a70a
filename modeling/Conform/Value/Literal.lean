import Conform.Value.Basic
import Conform.Text.Quoted

/-!
The text of a value. `literal` is the form a value has inside another one, with quotes and class
names; `display` is the form it has on its own.
-/
namespace Conform.Value

def numberLiteral : Number → String
  | .decimal d => "Decimal('" ++ d.text ++ "')"
  | .fraction r => "Fraction(" ++ toString r.num ++ ", " ++ toString r.den ++ ")"
  | n => n.text

mutual

def literal : Value → String
  | .null => "None"
  | .bool b => if b then "True" else "False"
  | .number n => numberLiteral n
  | .string s => Text.quoted s
  | .bytes .frozen data => Text.quotedBytes data
  | .bytes .mutable data => "bytearray(" ++ Text.quotedBytes data ++ ")"
  | .array .mutable xs => "[" ++ ", ".intercalate (literals xs) ++ "]"
  | .array .frozen [x] => "(" ++ x.literal ++ ",)"
  | .array .frozen xs => "(" ++ ", ".intercalate (literals xs) ++ ")"
  | .set [] => "set()"
  | .set xs => "\x7b" ++ ", ".intercalate (literals xs) ++ "\x7d"
  | .object .mutable ms => "\x7b" ++ ", ".intercalate (memberLiterals ms) ++ "\x7d"
  | .object .frozen ms =>
    "mappingproxy(\x7b" ++ ", ".intercalate (memberLiterals ms) ++ "\x7d)"
  | .foreign _ text => text
  | .record name fs => name ++ "(" ++ ", ".intercalate (fieldLiterals fs) ++ ")"

def literals : List Value → List String
  | [] => []
  | x :: xs => x.literal :: literals xs

def memberLiterals : List (String × Value) → List String
  | [] => []
  | (n, v) :: ms => (Text.quoted n ++ ": " ++ v.literal) :: memberLiterals ms

def fieldLiterals : List Field → List String
  | [] => []
  | .mk n _ v :: fs => (n ++ "=" ++ v.literal) :: fieldLiterals fs

end

def display : Value → String
  | .string s => s
  | .number n => n.text
  | v => v.literal

end Conform.Value
