import DocTree.Path.Basic

/-!
# Principals and permissions

Who asks for an operation, and who may write where.

## Main definitions

* `Principal`: a named user or service.
* `Permissions`: who may write where, with `Permissions.all` and `Permissions.denying`.
-/

namespace DocTree

/-- A named user or service. -/
structure Principal where
  /-- The name. -/
  name : String
  deriving DecidableEq, Repr, Inhabited

/-- Who may write where. -/
structure Permissions where
  /-- Whether a principal may write at a path. -/
  mayWrite : Principal → Path → Bool

/-- A rule that takes the permission to write away. A part that is absent matches everything. -/
structure DenyRule where
  /-- The principal that the rule is about. -/
  principal : Option Principal
  /-- The path at and below which the rule holds. -/
  under : Option Path
  deriving DecidableEq

/-- Whether every part of a rule matches. -/
def DenyRule.matches (rule : DenyRule) (principal : Principal) (path : Path) : Bool :=
  rule.principal.all (· == principal) && rule.under.all path.startsWith

namespace Permissions

/-- Everyone may write everywhere. -/
def all : Permissions :=
  ⟨fun _ _ => true⟩

/-- Everyone may write where no rule matches. -/
def denying (rules : List DenyRule) : Permissions :=
  ⟨fun principal path => rules.all fun rule => !rule.matches principal path⟩

end Permissions

end DocTree
