import EntityAccess.Repository.Write

/-!
# rules for partners

The name of a partner is taken once, in whatever case it is written, and the owner of a new partner
becomes its first member, as an administrator.
-/

namespace EntityAccess.Partner

/-- the role of an owner -/
def adminRole : String := "PARTNER_ADMIN"

def partnersName : String := "partners"
def membersName : String := "partner_members"

/-- the text in a column -/
def textOf (values : Row) (column : String) : Option String :=
  (values.get? column).bind Json.str?

/-- refuses a name that another partner has -/
def ensureUniqueName (partners : Entity) (name exceptId : String) : Action Unit := do
  if ← Action.query (.nameTaken partners name exceptId) ResultSet.readFirstFlag then
    throw (.rule partnersName "Partner with such details already exists")

/-- a new name is stored without white space around it -/
def preCreate (partners : Entity) (id : String) (values _input : Row) : Action Row :=
  match textOf values "name" with
  | none => pure values
  | some name => do
    let name := Text.trim name
    ensureUniqueName partners name id
    return values.insert "name" (.str name)

def preUpdate (partners : Entity) (current : Record) (values _input : Row) : Action Row :=
  match textOf values "name" with
  | none => pure values
  | some name => do
    ensureUniqueName partners name current.id
    return values

/-- the membership of an owner -/
def membership (partnerId owner : String) : Row :=
  Dict.ofList [("partner_id", .str partnerId), ("user_id", .str owner), ("role", .str adminRole)]

def postCreate (members : Repository) (record : Record) : Action Unit :=
  match textOf record.values "owner_id" with
  | none => pure ()
  | some owner => discard (members.create (membership record.id owner))

/-- the rules, for a schema with partners and their members -/
def hooks (schema : Schema) : Except ConfigError Hooks :=
  match schema.entity? partnersName, schema.entity? membersName with
  | none, _ => .error (.missingReference .entity partnersName)
  | some _, none => .error (.missingReference .entity membersName)
  | some partners, some members => .ok { Hooks.none with
      preCreate := preCreate partners
      preUpdate := preUpdate partners
      postCreate := postCreate (.plain schema members) }

end EntityAccess.Partner
