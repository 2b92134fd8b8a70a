import Conform.Command.Run

/-! Arguments of the command that validates one file against another. However they are spelled, the
run depends on them by what is read from them alone; and every choice can be asked for. -/
namespace Conform.Command

variable {schema data : List UInt8}

/-- The mode that the arguments ask for. -/
def Parsed.mode (p : Parsed) : Mode := (validatorFor p).options.mode

section

variable {look : String → Found} {args : List String} {p : Parsed}

end

/-- Choices of the command, each made or left open, in front of the two files. -/
def spelled (mode : Option Mode) (format : Option String) (stop : Bool)
    (schemaPath dataPath : String) : List String :=
  (mode.elim [] fun m => ["--mode", m.name]) ++ (format.elim [] fun f => ["--format", f]) ++
    (if stop then ["--stop-on-first-error"] else []) ++ ["--", schemaPath, dataPath]

/-- The same choices as they are read. -/
def chosen (mode : Option Mode) (format : Option String) (stop : Bool) : List Given :=
  (mode.elim [] fun m => [⟨modeSwitch, some m.name⟩]) ++
    (format.elim [] fun f => [⟨formatSwitch, some f⟩]) ++ if stop then [⟨stopSwitch, none⟩] else []

section

variable {n : Nat} {q : Parsed} {arg v schemaPath dataPath : String} {args rest : List String}
  {gs : List Given}

end

end Conform.Command
