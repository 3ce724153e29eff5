/-!
# Roles

The role of a node in the cluster, and what looking it up in the tags of an instance can give.
-/

namespace ClusterConfig

/-- The role a node plays in the cluster. -/
inductive Role where
  | compute
  | login
  | controller
  deriving DecidableEq, Repr

namespace Role

/-- All roles. -/
def all : List Role := [compute, login, controller]

/-- The tag that names a role. -/
def name : Role → String
  | compute => "compute"
  | login => "login"
  | controller => "controller"

/-- The role that a tag names. -/
def ofName? (name : String) : Option Role := all.find? fun role => role.name == name

/-- The role for diagnostics. -/
def shown : Role → String
  | compute => "Compute"
  | login => "Login"
  | controller => "Controller"

end Role

/-- Outcome of looking up a role. -/
inductive RoleLookup where
  /-- The first tag that names a role. -/
  | matched (role : Role)
  /-- Tags were read but none names a role. -/
  | noMatch
  /-- Tags could not be fetched or read. -/
  | unavailable
  deriving DecidableEq, Repr

namespace RoleLookup

/-- The role found. -/
def role? : RoleLookup → Option Role
  | matched role => some role
  | _ => none

/-- The outcome for tags that were read. -/
def ofTags (tags : List String) : RoleLookup :=
  match tags.findSome? Role.ofName? with
  | some role => matched role
  | none => noMatch

/-- The outcome for diagnostics. -/
def shown : RoleLookup → String
  | matched role => "Matched(" ++ role.shown ++ ")"
  | noMatch => "NoMatch"
  | unavailable => "Unavailable"

end RoleLookup

end ClusterConfig
