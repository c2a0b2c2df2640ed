import ObjectMapping.Access
import ObjectMapping.ObjectRef

/-! # Permissions

Whoever answers for rights is asked whether the user holds a right on an end of a relationship,
possibly within a context. The answer may come from anywhere (`Permissions` is any function); one
source is a list of grants. -/

namespace ObjectMapping

/-- A **source of permissions**: whether a right is held on a subject, within a context if given. -/
abbrev Permissions := Access → Endpoint → Option Int → Bool

/-- Every right is held. -/
def Permissions.all : Permissions := fun _ _ _ => true

/-- One **grant** of a right. -/
inductive Grant where
  /-- On all objects of a type. -/
  | type (access : Access) (type : TypeName)
  /-- On one object. -/
  | object (access : Access) (type : TypeName) (id : Int)
  /-- On a type within a context. -/
  | context (access : Access) (type : TypeName) (context : Int)
deriving DecidableEq

namespace Grant

/-- The grant in a JSON value: a list of what the right is granted on, the right, the type, and the
number of the object or of the context. -/
def ofJson? : Json → Option Grant
  | .arr [.str "type", access, .str t] => (Access.ofJson? access).map fun a => .type a ⟨t⟩
  | .arr [.str "object", access, .str t, id] => do
    return .object (← Access.ofJson? access) ⟨t⟩ (← id.int64?)
  | .arr [.str "context", access, .str t, id] => do
    return .context (← Access.ofJson? access) ⟨t⟩ (← id.int64?)
  | _ => none

/-- The type under which rights on a subject are granted: its own, for snapshots too. -/
def subjectType : Endpoint → TypeName
  | .object r => r.type
  | .draft t => t
  | .type t => t

/-- The permissions of a list of grants. Within a context only grants for that context count, and
outside of contexts only the others do. -/
def permissions (grants : List Grant) : Permissions := fun access subject context =>
  let type := subjectType subject
  match context with
  | some c => grants.contains (.context access type c)
  | none =>
    grants.contains (.type access type) ||
      match subject.ref? with
      | some r => grants.contains (.object access type r.id)
      | none => false

end Grant

end ObjectMapping
