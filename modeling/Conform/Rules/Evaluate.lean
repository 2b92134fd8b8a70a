import Conform.Rules.Leaf

/-!
Evaluation: a compiled node against a value. The entries of a node run in order and their findings
are joined; asked to stop, a node gives its first finding. The walk is structural on the node.
-/
namespace Conform.Rules

abbrev Evaluating := Logged Fault

section

variable {α ε : Type}

/-- Findings one after the other; asked to stop, nothing after the first that finds something. -/
def gather (stop : Bool) (first : Logged ε (List Finding))
    (rest : Unit → Logged ε (List Finding)) : Logged ε (List Finding) := do
  let found ← first
  if stop && !found.isEmpty then return found
  else do
    let more ← rest ()
    return found ++ more

def gatherAll (stop : Bool) (f : α → Logged ε (List Finding)) : List α → Logged ε (List Finding)
  | [] => pure []
  | a :: as => gather stop (f a) fun _ => gatherAll stop f as

end

def lift {α : Type} (x : Evaluating α) : Checking α := x.mapError .fault

/-- A rule's end as the engine takes it: what nobody foresaw is logged and ends the run. -/
def settle (keyword : String) (path : Path) (x : Checking (List Finding)) :
    Evaluating (List Finding) :=
  match x.result with
  | .ok found => ⟨.ok found, x.log⟩
  | .error (.replaced found) => ⟨.ok found, x.log⟩
  | .error (.fault f) => ⟨.error f, x.log⟩
  | .error (.breakdown b) =>
    ⟨.error (.ruleFailed keyword path.text b.text),
      x.log ++ [.error s!"Rule '{keyword}' failed at {path.text}: {b.text}"]⟩

def Subject.rejected (s : Subject) (keyword : String) : List Finding :=
  s.finding keyword (.rejected keyword)

/-- A custom rule's verdict. One that fails without findings gets a general one. -/
def ofVerdict (keyword : String) (s : Subject) : Verdict → Checking (List Finding)
  | .passed => pure []
  | .failed => pure (s.rejected keyword)
  | .violated [] => pure (s.rejected keyword)
  | .violated (f :: fs) => pure (f :: fs)
  | .aborted f => .fail (.fault f)
  | .crashed b => .fail (.breakdown b)

def Subject.stopping (s : Subject) : Subject :=
  { s with frame := { s.frame with stopAtFirst := true } }

/-- The subject at one of its members or elements. -/
def Subject.into (s : Subject) (step : Step) (v : Value) : Subject :=
  { s with value := v, path := s.path.child step }

/-- The subject as a node sees it before its condition is known. -/
def Subject.enter (s : Subject) (entries : List Entry) (patterns : List Pattern) : Subject :=
  let declared := Node.declaredIn entries
  { s with frame := { s.frame with declared, patterns, condition := none } }

def Subject.under (s : Subject) (condition : Option Bool) : Subject :=
  { s with frame := { s.frame with condition } }

def badNamePattern (s : Subject) (name : String) : Finding :=
  { path := s.path, reason := .unusableNamePattern name, tag := Keyword.patternProperties.name,
    param := some name }

/-- The patterns of a mapping, or the first that cannot be used. -/
def readPatterns (s : Subject) : List String → Checking (List Pattern)
  | [] => pure []
  | name :: names =>
    match Pattern.compile name with
    | .ok p => do
      let ps ← readPatterns s names
      return p :: ps
    | .error r => match r with
      | .malformed .. => .fail (.replaced [badNamePattern s name])
      | _ => .fail (.breakdown (.ofRejection name r))

/-- The members that are neither declared nor matched by a pattern. -/
def extras (frame : Frame) (ms : List (String × Value)) : List (String × Value) :=
  ms.filter fun m => !frame.declared.contains m.1 && !frame.patterns.any fun p => p.search m.1

def unknownField (s : Subject) (m : String × Value) : Finding :=
  { path := s.path.child (.member m.1), reason := .unknownField m.1,
    tag := Keyword.additionalProperties.name, value := m.2, param := some m.1 }

def additionalFinding (s : Subject) (m : String × Value) (inner : Finding) : Finding :=
  { path := s.path.child (.member m.1), reason := .additional m.1 inner.tag inner.reason,
    tag := Keyword.additionalProperties.name, value := m.2, param := some inner.tag }

def dependencyFinding (s : Subject) (name : String) (v : Value) (inner : Finding) : Finding :=
  { path := s.path.child (.member name), reason := .dependency name inner.tag inner.reason,
    tag := Keyword.dependencies.name, value := v, param := some inner.tag }

def missingNames (s : Subject) (name : String) (required : List String)
    (ms : List (String × Value)) : List Finding :=
  (required.filter fun r => !Listing.has r ms).map fun r =>
    { path := s.path, reason := .dependencyMissing name r, tag := Keyword.dependencies.name,
      param := some r }

def conjunctFinding (i : Nat) (inner : Finding) : Finding :=
  { inner with reason := .conjunct i inner.tag inner.reason }

def clauseFinding (s : Subject) (c : Clause) (inner : Finding) : Finding :=
  { path := inner.path, reason := .clause c inner.tag inner.reason, tag := c.name, value := s.value,
    param := some inner.tag }

/-- What a disjunction says of the number of schemas that hold. -/
def countVerdict (c : Combinator) (s : Subject) (holding : Nat) : List Finding :=
  match c, holding with
  | _, 0 => s.finding c.name (.noneHolds c)
  | .oneOf, n + 2 => s.finding c.name .severalHold (some (toString (n + 2)))
  | _, _ => []

/-- Whether a clause is to be looked at. -/
def clauseApplies : Clause → Option Bool → Bool
  | .consequent, some true => true
  | .alternative, some false => true
  | _, _ => false

mutual

/-- All that a value fails of a node. -/
def evaluate (s : Subject) : Node → Evaluating (List Finding)
  | .mk _ entries patterns _ => do
    let inner := s.enter entries patterns
    let condition ← conditionOf inner entries
    runEntries (inner.under condition) entries

/-- Whether the value meets the schema under `if`, where that keyword has a rule. -/
def conditionOf (s : Subject) : List Entry → Evaluating (Option Bool)
  | [] => pure none
  | .mk keyword (.node n) (some _) :: es =>
    if keyword = Clause.condition.name then
      (evaluate s.stopping n).map fun found => some found.isEmpty
    else conditionOf s es
  | _ :: es => conditionOf s es

def runEntries (s : Subject) : List Entry → Evaluating (List Finding)
  | [] => pure []
  | e :: es => do
    let found ← runEntry s e
    if s.frame.stopAtFirst && !found.isEmpty then return found.take 1
    else do
      let more ← runEntries s es
      return found ++ more

def runEntry (s : Subject) : Entry → Evaluating (List Finding)
  | .mk _ _ none => pure []
  | .mk keyword param (some rule) =>
    settle keyword s.path (match rule.handler with
      | .builtin k => runRule s k param
      | .custom r => ofVerdict keyword s (r.apply ⟨s.frame, s.value, param.view, s.path⟩))

/-- A built-in rule with a parameter. A parameter of a shape that compilation never gives the
keyword asks for nothing, unless the rule says otherwise. -/
def runRule (s : Subject) : Keyword → Param → Checking (List Finding)
  | .type, .plain p => pure (checkType s p)
  | .bound b, .plain p => pure (checkBound b s p)
  | .multipleOf, .plain p => pure (checkMultipleOf s p)
  | .limit l, .plain p => pure (checkLimit l s p)
  | .pattern, .plain p => checkPattern s p
  | .uniqueItems, .plain p => pure (checkUniqueItems s p)
  | .enum, .plain p => pure (checkEnum s p)
  | .format, .plain p => checkFormat s p
  | .required, .plain p => pure (checkRequired s p)
  | .properties, .named ns =>
    match s.value with
    | .object _ ms => lift (runProperties s ms ns)
    | _ => pure []
  | .patternProperties, .named ns =>
    match s.value with
    | .object _ ms => do
      let ps ← readPatterns s (ns.map (·.1))
      lift (gatherAll s.frame.stopAtFirst
        (fun m => runMatching (s.into (.member m.1) m.2) m.1 ps ns) ms)
    | _ => pure []
  | .additionalProperties, .plain (.bool false) =>
    match s.value with
    | .object _ ms =>
      if s.frame.allowUnknown then pure []
      else
        let found := (extras s.frame ms).map (unknownField s)
        pure (if s.frame.stopAtFirst then found.take 1 else found)
    | _ => pure []
  | .additionalProperties, .node n =>
    match s.value with
    | .object _ ms =>
      lift (gatherAll s.frame.stopAtFirst
        (fun m => (evaluate (s.into (.member m.1) m.2).stopping n).map fun found =>
          found.head?.toList.map (additionalFinding s m))
        (extras s.frame ms))
    | _ => pure []
  | .items, .node n =>
    match s.value with
    | .array _ xs =>
      lift (gatherAll s.frame.stopAtFirst (fun x => evaluate (s.into (.element x.2) x.1) n)
        xs.zipIdx)
    | _ => pure []
  | .items, .nodes ns =>
    match s.value with
    | .array _ xs => lift (runItems s 0 xs ns)
    | _ => pure []
  | .dependencies, .dependencies ds =>
    match s.value with
    | .object _ ms => runDependencies s ms ds
    | _ => pure []
  | .combine .allOf, .nodes (n :: ns) => lift (runConjunction s 0 (n :: ns))
  | .combine .anyOf, .nodes (n :: ns) =>
    (lift (holdsSome s (n :: ns))).map fun b => countVerdict .anyOf s (if b then 1 else 0)
  | .combine .oneOf, .nodes (n :: ns) =>
    (lift (countHolding s (n :: ns))).map (countVerdict .oneOf s)
  | .combine c, _ => pure (s.bareFinding c.name (.emptyCombinator c))
  | .negation, .node n =>
    if n.hasRules then
      (lift (((evaluate s.stopping n).map (·.isEmpty)).recover fun _ => pure false)).map fun b =>
        if b then s.finding Keyword.negation.name .negated else []
    else pure (s.bareFinding Keyword.negation.name .idleNegation)
  | .negation, _ => pure (s.bareFinding Keyword.negation.name .idleNegation)
  | .clause c, .node n =>
    if clauseApplies c s.frame.condition then
      (lift (evaluate s.stopping n)).map fun found => found.head?.toList.map (clauseFinding s c)
    else pure []
  | _, _ => pure []

def runProperties (s : Subject) (ms : List (String × Value)) :
    List (String × Node) → Evaluating (List Finding)
  | [] => pure []
  | (name, n) :: ns =>
    match Listing.get? name ms with
    | none => runProperties s ms ns
    | some v => gather s.frame.stopAtFirst (evaluate (s.into (.member name) v) n)
        fun _ => runProperties s ms ns

/-- One member against the schemas of all patterns that match its name. -/
def runMatching (s : Subject) (name : String) : List Pattern → List (String × Node) →
    Evaluating (List Finding)
  | p :: ps, (_, n) :: ns =>
    if p.search name then
      gather s.frame.stopAtFirst (evaluate s n) fun _ => runMatching s name ps ns
    else runMatching s name ps ns
  | _, _ => pure []

def runItems (s : Subject) (i : Nat) : List Value → List Node → Evaluating (List Finding)
  | x :: xs, n :: ns =>
    gather s.frame.stopAtFirst (evaluate (s.into (.element i) x) n) fun _ =>
      runItems s (i + 1) xs ns
  | _, _ => pure []

def runDependencies (s : Subject) (ms : List (String × Value)) :
    List (String × Dependency) → Checking (List Finding)
  | [] => pure []
  | (name, d) :: ds =>
    match Listing.get? name ms with
    | none => runDependencies s ms ds
    | some v => gather s.frame.stopAtFirst (runDependency s ms name v d) fun _ =>
        runDependencies s ms ds

def runDependency (s : Subject) (ms : List (String × Value)) (name : String) (v : Value) :
    Dependency → Checking (List Finding)
  | .names required => pure (missingNames s name required ms)
  | .node n => (lift (evaluate (s.into (.member name) v).stopping n)).map fun found =>
    found.head?.toList.map (dependencyFinding s name v)
  | .unusable _ => .fail (.replaced (s.bareFinding Keyword.dependencies.name (.badDependency name)))

/-- The first finding of each branch that fails. -/
def runConjunction (s : Subject) (i : Nat) : List Node → Evaluating (List Finding)
  | [] => pure []
  | n :: ns =>
    gather s.frame.stopAtFirst
      ((evaluate { s.stopping with path := s.path.child (.branch i) } n).map fun found =>
        found.head?.toList.map (conjunctFinding i))
      fun _ => runConjunction s (i + 1) ns

/-- Whether some schema holds; those after the first that does are not looked at. -/
def holdsSome (s : Subject) : List Node → Evaluating Bool
  | [] => pure false
  | n :: ns => do
    let found ← evaluate s.stopping n
    if found.isEmpty then return true else holdsSome s ns

def countHolding (s : Subject) : List Node → Evaluating Nat
  | [] => pure 0
  | n :: ns => do
    let found ← evaluate s.stopping n
    let rest ← countHolding s ns
    return if found.isEmpty then rest + 1 else rest

end

end Conform.Rules
