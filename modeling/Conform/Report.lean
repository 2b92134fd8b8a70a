import Conform.Finding
import Conform.Json.Writer
import Conform.Mode
import Conform.Value.Freeze

/-!
Reports: findings as text in one of three layouts, and findings counted by path.
-/
namespace Conform.Report

/-- A finding as an object; what is absent is left out. -/
def record (f : Finding) : Value :=
  let start := [("path", Value.string f.path.text), ("message", .string f.message),
    ("tag", .string f.tag)]
  let value := match f.value with
    | .null => []
    | v => [("value", v.thaw)]
  let param := match f.param with
    | none => []
    | some p => [("param", Value.string p)]
  .object .mutable (start ++ value ++ param)

def heading : String := "validation failed with the following errors:"

/-- Numbered lines under a heading. -/
def detailed (found : List Finding) : String :=
  "\n".intercalate (heading :: found.zipIdx.map fun (f, i) => s!"[{i + 1}] {f.text}")

def simple (found : List Finding) : String := "; ".intercalate (found.map Finding.message)

def json (found : List Finding) : String := Json.render (.list (found.map record))

def write : Layout → List Finding → String
  | .simple => simple
  | .detailed => detailed
  | .json => json

/-- The findings at each path, in order of the paths' first appearance. -/
def groupByPath (found : List Finding) : Listing (List Finding) :=
  found.foldl (fun l f => l.put f.path.text (((l.get? f.path.text).getD []) ++ [f])) []

end Conform.Report
