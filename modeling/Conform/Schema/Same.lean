import Conform.Tree
import Conform.Value.Equal

/-!
Equality of compiled schemas: keywords and notes as mappings, whose order does not matter; bindings
and patterns in order. Values are compared as containers compare them.
-/
namespace Conform

def Rule.same (r s : Rule) : Bool := r.handler.same s.handler && r.kind == s.kind

def ruledKeywords (es : List Entry) : List (String × Rule) :=
  es.filterMap fun e => e.rule.map fun r => (e.keyword, r)

/-- Whether the same keywords come in the same order with the same rules. Their parameters are
compared by name elsewhere. -/
def sameRules : List (String × Rule) → List (String × Rule) → Bool
  | [], [] => true
  | (k, r) :: rs, (k', r') :: rs' => k == k' && r.same r' && sameRules rs rs'
  | _, _ => false

mutual

def Node.same : Node → Node → Bool
  | .mk m es ps ns, .mk m' es' ps' ns' =>
    m == m' && es.length == es'.length && sameEntries es es' &&
      sameRules (ruledKeywords es) (ruledKeywords es') && ps.map (·.source) == ps'.map (·.source) &&
      ns.length == ns'.length && Value.identicalMembers ns ns'

/-- Whether each keyword of the first is found, by name and equal, in the second. -/
def sameEntries : List Entry → List Entry → Bool
  | [], _ => true
  | .mk k p _ :: es, es' =>
    (match Node.paramIn? k es' with
      | some q => p.same q
      | none => false) && sameEntries es es'

def Param.same : Param → Param → Bool
  | .plain v, .plain w => v.identical w
  | .node n, .node n' => n.same n'
  | .nodes ns, .nodes ns' => sameNodes ns ns'
  | .named ns, .named ns' => ns.length == ns'.length && sameNamed ns ns'
  | .dependencies ds, .dependencies ds' => ds.length == ds'.length && sameDependencies ds ds'
  | .nodes [], .plain v => v.identical (.array .frozen [])
  | .plain v, .nodes [] => v.identical (.array .frozen [])
  | _, _ => false

def sameNodes : List Node → List Node → Bool
  | [], [] => true
  | n :: ns, n' :: ns' => n.same n' && sameNodes ns ns'
  | _, _ => false

def sameNamed : List (String × Node) → List (String × Node) → Bool
  | [], _ => true
  | (k, n) :: ns, ns' =>
    (match Listing.get? k ns' with
      | some n' => n.same n'
      | none => false) && sameNamed ns ns'

def sameDependencies : List (String × Dependency) → List (String × Dependency) → Bool
  | [], _ => true
  | (k, d) :: ds, ds' =>
    (match Listing.get? k ds' with
      | some d' => d.same d'
      | none => false) && sameDependencies ds ds'

def Dependency.same : Dependency → Dependency → Bool
  | .names xs, .names ys => xs == ys
  | .node n, .node n' => n.same n'
  | .unusable v, .unusable w => v.identical w
  | _, _ => false

end

end Conform
