import EntityAccess.Connection.Url
import EntityAccess.Number.Reading
import EntityAccess.Program
import EntityAccess.Settings
import EntityAccess.Text.Form

/-!
# connections

How a connection is opened: where, as which user, and with which parameters.  A server is a host of
the network or a directory with a socket; a directory that is named once is preferred to all hosts.
The database of a URL can be created first, on a connection to the database `postgres` of the same
server.
-/

namespace EntityAccess.Connection

structure Options where
  host : String
  /-- the directory of the socket -/
  socket : Option String
  port : Nat
  user : String
  password : Option String
  database : Option String
  applicationName : Option String
  /-- command line options of the session -/
  options : Option String
  /-- the server has to encrypt the connection -/
  requiresTls : Bool
deriving DecidableEq

namespace Options

def default : Options :=
  ⟨"localhost", none, 5432, "root", none, none, none, none, false⟩

/-- a part of a URL with percent signs decoded -/
def decoded? (cs : List Char) : Option String :=
  Text.decode? (Text.percentDecode (Text.octets (String.ofList cs)))

/-- the options with a server that is named by an absolute path or else as a host -/
def withServer (o : Options) (name : String) : Options :=
  if name.toList.head? = some '/' then { o with socket := some name } else { o with host := name }

/-- the options with the host of a URL; only a path is decoded -/
def withHost? (o : Options) (host : List Char) : Option Options :=
  match Text.percentDecode (Text.octets (String.ofList host)) with
  | 47 :: _ => (decoded? host).map o.withServer
  | _ => some { o with host := String.ofList host }

/-- a text with a backslash before each backslash and each space -/
def escaped (text : String) : String :=
  String.ofList (text.toList.flatMap fun c => if c = ' ' ∨ c = '\\' then ['\\', c] else [c])

/-- one more session option -/
def addOption (o : Options) (text : String) : Options :=
  { o with options := some <| match o.options with
    | some before => if before = "" then text else Text.concat [before, " ", text]
    | none => text }

/-- a session option for a parameter -/
def addParameter (o : Options) (name value : String) : Options :=
  o.addOption (Text.concat ["-c ", escaped name, "=", escaped value])

/-- whether an encryption mode insists on encryption -/
def requiresTls? (mode : String) : Option Bool :=
  match Text.lowerAscii mode with
  | "disable" => some false
  | "allow" => some false
  | "prefer" => some false
  | "require" => some true
  | "verify-ca" => some true
  | "verify-full" => some true
  | _ => none

/-- a number up to `bound` -/
def readBounded? (bound : Nat) (text : String) : Option Nat :=
  (Number.readNat bound text.toList).toOption

/-- the name in the brackets of `options[name]` -/
def bracketed? (key : String) : Option String :=
  match Text.afterStart "options[".toList key.toList with
  | some rest =>
    match rest.reverse with
    | ']' :: name => some (String.ofList name.reverse)
    | _ => none
  | none => none

/-- the options with one field of a query -/
def addField (o : Options) (field : String × String) : Option Options :=
  let (key, value) := field
  match key with
  | "sslmode" => (requiresTls? value).map fun b => { o with requiresTls := b }
  | "ssl-mode" => (requiresTls? value).map fun b => { o with requiresTls := b }
  | "statement-cache-capacity" => (readBounded? Number.maxUnsigned value).map fun _ => o
  | "host" => some (o.withServer value)
  | "hostaddr" => if Address.isNumeric value.toList then some { o with host := value } else none
  | "port" => (readBounded? 65535 value).map fun n => { o with port := n }
  | "dbname" => some { o with database := some value }
  | "user" => some { o with user := value }
  | "password" => some { o with password := some value }
  | "application_name" => some { o with applicationName := some value }
  | "options" => some <| match o.options with
    | some before => { o with options := some (Text.concat [before, " ", value]) }
    | none => { o with options := some value }
  | _ =>
    match bracketed? key with
    | some name => some (o.addParameter name value)
    | none => some o

/-- the parameters that a session is opened with -/
def parameters (o : Options) : List (String × String) :=
  let optional (name : String) (value : Option String) := (value.map fun v => (name, v)).toList
  ("user", o.user) :: optional "database" o.database ++
    optional "application_name" o.applicationName ++ optional "options" o.options

/-- the names that a path consists of -/
def pathNames (path : String) : List String :=
  (Text.splitBy "/" path).filter fun name => name ≠ "" ∧ name ≠ "."

/-- whether a server is reached that has its socket in a directory, at the port that goes without
saying, and that does not encrypt -/
def reaches (o : Options) (directory : String) : Bool :=
  o.socket.any (pathNames · == pathNames directory) && o.port == default.port && !o.requiresTls

/-- the options of a URL -/
def ofUrl? (url : String) : Option Options := do
  let u ← Url.read? url
  let o ← u.host.elim (some default) default.withHost?
  let user ← decoded? u.user
  let password ← decoded? u.password
  let database ← decoded? u.path
  let base : Options := { o with
    port := u.port.getD o.port
    user := if user = "" then o.user else user
    password := if password = "" then o.password else some password
    database := if database = "" then none else some database }
  (Text.readForm (String.ofList u.query)).foldlM addField base

/-- the options of a URL, or an error -/
def ofUrl (url : String) : Except Error Options :=
  match ofUrl? url with
  | some o => .ok o
  | none => .error (.badRequest .invalidUrl)

/-- the options of a pooled connection -/
def ofSettings (s : Settings) : Except Error Options := do
  let o ← ofUrl s.databaseUrl
  let named := { o with applicationName := some s.applicationName }
  return (named.addParameter "statement_timeout" (toString s.statementTimeout)).addParameter
    "idle_in_transaction_session_timeout" (toString s.idleTimeout)

end Options

/-! ### creating the database -/

/-- the name of the database that every server has -/
def adminDatabase : String := "postgres"

/-- the URL of the admin database of the same server, and the database that a URL names -/
def splitDatabase (url : String) : Except Error (String × String) :=
  match Text.lastCut ['/'] url.toList with
  | none => .error (.badRequest .urlWithoutPath)
  | some (base, rest) =>
    let (name, query) := Url.cutBefore ['?'] rest
    .ok (Text.concat [String.ofList base, "/", adminDatabase, String.ofList query],
      Text.trim (String.ofList name))

/-- creates a database unless there is one of that name -/
def createMissing (name : String) : Action Unit := do
  if ← Action.query (.databaseExists name) ResultSet.readFirstFlag then pure ()
  else Action.execute (.createDatabase name)

/-- how to make sure that the database of a URL exists: where to connect, and what to do there -/
def ensureDatabase (url : String) : Except Error (Option (Options × Action Unit)) := do
  let (admin, name) ← splitDatabase url
  if name = "" ∨ name = adminDatabase then return none
  return some (← Options.ofUrl admin, createMissing name)

end EntityAccess.Connection
