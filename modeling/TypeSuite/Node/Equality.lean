import TypeSuite.Node.Basic

/-!
# Equality of source nodes

Two nodes are equal when they have the same kind and all their fields are equal.
-/

namespace TypeSuite.Node

mutual
/-- Compares two nodes field by field. -/
def same : Node → Node → Bool
  | .identifier s, .identifier t => s == t
  | .stringLiteral s, .stringLiteral t => s == t
  | .numericLiteral s, .numericLiteral t => s == t
  | .computedName s, .computedName t => s == t
  | .parameter n ty o s, .parameter n' ty' o' t =>
    same n n' && sameOption ty ty' && o == o' && s == t
  | .property n ty o s, .property n' ty' o' t =>
    same n n' && sameOption ty ty' && o == o' && s == t
  | .method n ps ty s, .method n' ps' ty' t =>
    same n n' && sameAll ps ps' && sameOption ty ty' && s == t
  | .reference n as s, .reference n' as' t => same n n' && sameAll as as' && s == t
  | .function ps ty s, .function ps' ty' t => sameAll ps ps' && sameOption ty ty' && s == t
  | .typeLiteral ms s, .typeLiteral ms' t => sameAll ms ms' && s == t
  | .array e s, .array e' t => same e e' && s == t
  | .tuple es s, .tuple es' t => sameAll es es' && s == t
  | .union ts s, .union ts' t => sameAll ts ts' && s == t
  | .literal s, .literal t => s == t
  | .interface n hs ms s, .interface n' hs' ms' t =>
    same n n' && sameAll hs hs' && sameAll ms ms' && s == t
  | .alias n ty s, .alias n' ty' t => same n n' && same ty ty' && s == t
  | .heritage e as s, .heritage e' as' t => same e e' && sameAll as as' && s == t
  | .parenthesized ty s, .parenthesized ty' t => same ty ty' && s == t
  | .keyword k s, .keyword k' t => k == k' && s == t
  | .sourceFile f ss s, .sourceFile f' ss' t => f == f' && sameAll ss ss' && s == t
  | .unknown f s, .unknown f' t => f == f' && s == t
  | _, _ => false

/-- Compares two lists of nodes. -/
def sameAll : List Node → List Node → Bool
  | [], [] => true
  | a :: as, b :: bs => same a b && sameAll as bs
  | _, _ => false

/-- Compares two optional nodes. -/
def sameOption : Option Node → Option Node → Bool
  | none, none => true
  | some a, some b => same a b
  | _, _ => false
end

instance : BEq Node := ⟨same⟩

end TypeSuite.Node
