import Mathlib.Data.List.Sort
import Zeroboot.Lib.Client
import Zeroboot.Lib.Text

/-!
# The Manifests

`apply-manifests.py`: how the manifests of a cluster are brought to its
apiserver.

A node has no client for the apiserver, so a script makes the requests. It
creates each object, and where there is one of that name already it reads that
one, takes over its version and replaces it. The script is a `Client`: it asks,
and what it does next depends on the answer. A request that fails is an answer
as well when the server refused it, and ends the script when there was no
server to ask.

Python, the YAML reader and the file system are outside. `Py` is what a reader
of YAML makes of a document, `Python` and `Files` say what is used of the rest.

## Main definitions

* `Py`: The values.
* `Request`, `Reply`: What is asked, and what comes back.
* `resourcePath`: Where the objects of a kind are.
* `applyOne`: One manifest.
* `docs`, `applyAll`, `main`: The script.
-/

namespace Zeroboot.Manifests

/-! ## The values -/

/-- The values of a document. Those that are neither whole numbers nor texts
    are known by what Python prints of them. -/
inductive Py where
  | null
  | bool (b : Bool)
  | int (n : Int)
  | float (printed : String)
  | str (s : String)
  | list (items : List Py)
  | dict (fields : List (String × Py))

/-- What ends the script early: a message that it ends itself with, or an
    exception that nothing catches. -/
inductive Ended where
  | exit (message : String)
  | raised (exception : String)

namespace Py

/-- `if v`. -/
def truthy : Py → Bool
  | .null => false
  | .bool b => b
  | .int n => n ≠ 0
  | .float printed => printed ≠ "0.0" && printed ≠ "-0.0"
  | .str s => s ≠ ""
  | .list items => !items.isEmpty
  | .dict fields => !fields.isEmpty

/-- `v[key]`. -/
def item (v : Py) (key : String) : Except Ended Py :=
  match v with
  | .dict fields =>
      match fields.lookup key with
      | some x => .ok x
      | none => .error (.raised "KeyError")
  | _ => .error (.raised "TypeError")

/-- `v.get(key, default)`. -/
def get (v : Py) (key : String) (default : Py) : Except Ended Py :=
  match v with
  | .dict fields => .ok ((fields.lookup key).getD default)
  | _ => .error (.raised "AttributeError")

/-- The fields with one set, in its place or behind the others. -/
def setField (key : String) (x : Py) : List (String × Py) → List (String × Py)
  | [] => [(key, x)]
  | (k, y) :: fields => if k = key then (key, x) :: fields else (k, y) :: setField key x fields

/-- `v[key] = x`. -/
def setItem (v : Py) (key : String) (x : Py) : Except Ended Py :=
  match v with
  | .dict fields => .ok (.dict (setField key x fields))
  | _ => .error (.raised "TypeError")

/-- `key in v`. -/
def contains (v : Py) (key : String) : Except Ended Bool :=
  match v with
  | .str s => .ok (Text.contains s key)
  | .list items => .ok (items.any fun | .str s => s == key | _ => false)
  | .dict fields => .ok (fields.any fun field => field.1 == key)
  | _ => .error (.raised "TypeError")

end Py

/-- What is used of Python's printing. -/
structure Python where
  /-- `str(v)` of a value that is not a text. -/
  str : Py → String
  /-- `repr(v)`. -/
  repr : Py → String
  /-- `repr(v)` of bytes. -/
  reprBytes : List UInt8 → String

/-- A value in a formatted string. -/
def Python.format (P : Python) : Py → String
  | .str s => s
  | v => P.str v

/-! ## One manifest -/

inductive Method where
  | get
  | post
  | put
  deriving DecidableEq

structure Request where
  method : Method
  url : String
  body : Option Py

/-- An answer with its JSON, an HTTP error with its body, or an exception of
    another kind. -/
inductive Reply where
  | ok (body : Py)
  | httpError (code : Nat) (body : List UInt8)
  | raised (exception : String)

/-- `kind` to plural, and whether its objects are in a namespace. -/
def plurals : List (String × String × Bool) :=
  [ ("ServiceAccount", "serviceaccounts", true),
    ("ConfigMap", "configmaps", true),
    ("Secret", "secrets", true),
    ("Service", "services", true),
    ("Deployment", "deployments", true),
    ("DaemonSet", "daemonsets", true),
    ("ClusterRole", "clusterroles", false),
    ("ClusterRoleBinding", "clusterrolebindings", false),
    ("Role", "roles", true),
    ("RoleBinding", "rolebindings", true),
    ("CustomResourceDefinition", "customresourcedefinitions", false),
    ("Network", "networks", false),
    ("Namespace", "namespaces", false) ]

/-- The entry of the table. A list or an object cannot be looked up in it. -/
def pluralOf (P : Python) (kind : Py) : Except Ended (String × Bool) :=
  let unhandled : Except Ended (String × Bool) :=
    .error (.exit ("unhandled kind " ++ P.repr kind ++ " — add it to PLURALS"))
  match kind with
  | .str k => (plurals.lookup k).elim unhandled .ok
  | .list _ => .error (.raised "TypeError")
  | .dict _ => .error (.raised "TypeError")
  | _ => unhandled

/-- REST collection URL for an object, from `apiVersion` and `kind`. -/
def resourcePath (P : Python) (base : String) (obj : Py) : Except Ended String := do
  let apiVersion ← obj.item "apiVersion"
  let kind ← obj.item "kind"
  let (plural, namespaced) ← pluralOf P kind
  -- The core group is under `api`, and every other one under `apis`.
  let grouped ← apiVersion.contains "/"
  let root := base ++ (if grouped then "/apis/" else "/api/") ++ P.format apiVersion
  if namespaced then
    let metadata ← obj.get "metadata" (.dict [])
    let ns ← metadata.get "namespace" (.str "default")
    return root ++ "/namespaces/" ++ P.format ns ++ "/" ++ plural
  else
    return root ++ "/" ++ plural

/-- What is worked out about a manifest before anything is asked. -/
structure Target where
  kind : String
  name : String
  coll : String

def target (P : Python) (base : String) (obj : Py) : Except Ended Target := do
  let kind ← obj.item "kind"
  let metadata ← obj.get "metadata" (.dict [])
  let name ← metadata.get "name" (.str "<unnamed>")
  let coll ← resourcePath P base obj
  return { kind := P.format kind, name := P.format name, coll := coll }

/-- The URL of the object itself. -/
def Target.url (t : Target) : String :=
  t.coll ++ "/" ++ t.name

/-- `metadata.resourceVersion` of what the server has. -/
def liveVersion (live : Py) : Except Ended Py := do
  let metadata ← live.get "metadata" (.dict [])
  metadata.get "resourceVersion" .null

/-- The manifest with that version in it. -/
def setVersion (obj : Py) (version : Py) : Except Ended Py := do
  let metadata ← obj.get "metadata" (.dict [])
  let metadata ← metadata.setItem "resourceVersion" version
  obj.setItem "metadata" metadata

/-- The line that is printed about a manifest. -/
inductive Line where
  | created (kind name : String)
  | replaced (kind name : String)
  | failed (kind name : String) (code : Nat) (body : List UInt8)

namespace Line

/-- What `apply_one` returns. -/
def applied : Line → Bool
  | created _ _ => true
  | replaced _ _ => true
  | failed _ _ _ _ => false

def text (P : Python) : Line → String
  | created kind name => "  created  " ++ kind ++ "/" ++ name
  | replaced kind name => "  replaced " ++ kind ++ "/" ++ name
  | failed kind name code body => "  FAILED   " ++ kind ++ "/" ++ name ++ ": HTTP " ++
      toString code ++ " " ++ P.reprBytes (body.take 200)

end Line

/-- The object already exists: its version is carried over, and it is
    replaced. -/
def replace (obj : Py) (t : Target) : Client Request Reply (Except Ended Line) :=
  .ask { method := .get, url := t.url, body := none } fun
    | .raised e => .done (.error (.raised e))
    | .httpError code body => .done (.ok (.failed t.kind t.name code body))
    | .ok live =>
        match liveVersion live >>= setVersion obj with
        | .error e => .done (.error e)
        | .ok obj' =>
            .ask { method := .put, url := t.url, body := some obj' } fun
              | .raised e => .done (.error (.raised e))
              | .httpError code body => .done (.ok (.failed t.kind t.name code body))
              | .ok _ => .done (.ok (.replaced t.kind t.name))

def applyOne (P : Python) (base : String) (obj : Py) :
    Client Request Reply (Except Ended Line) :=
  match target P base obj with
  | .error e => .done (.error e)
  | .ok t =>
      .ask { method := .post, url := t.coll, body := some obj } fun
        | .ok _ => .done (.ok (.created t.kind t.name))
        | .raised e => .done (.error (.raised e))
        | .httpError code body =>
            if code ≠ 409 then .done (.ok (.failed t.kind t.name code body)) else replace obj t

/-! ## The script -/

/-- What is used of the file system and of the YAML reader. -/
structure Files where
  isDir : String → Bool
  glob : String → List String
  /-- The documents of a file, and what kept the reader from going on. -/
  load : String → List Py × Option String

/-- `os.path.join`, with a file name. -/
def osPathJoin (a name : String) : String :=
  if a = "" || Text.endsWith a "/" then a ++ name else a ++ "/" ++ name

/-- The files of an argument. -/
def filesOf (F : Files) (p : String) : List String :=
  if F.isDir p then
    (F.glob (osPathJoin p "*.yaml") ++ F.glob (osPathJoin p "*.yml")).insertionSort (· ≤ ·)
  else [p]

/-- The documents of a file that are not empty, and how the file ends. -/
def docsOf (F : Files) (file : String) : List (Except Ended Py) :=
  ((F.load file).1.filter Py.truthy).map .ok ++
    (F.load file).2.toList.map fun e => .error (.raised e)

def docs (F : Files) (paths : List String) : List (Except Ended Py) :=
  paths.flatMap fun p => (filesOf F p).flatMap (docsOf F)

/-- The loop of `main`, with what was printed so far and how many manifests
    failed. -/
def applyAll (P : Python) (base : String) :
    List (Except Ended Py) → List Line → Nat → Client Request Reply (List Line × Except Ended Nat)
  | [], printed, failures => .done (printed, .ok failures)
  | .error e :: _, printed, _ => .done (printed, .error e)
  | .ok obj :: rest, printed, failures =>
      (applyOne P base obj).bind fun
        | .error e => .done (printed, .error e)
        | .ok line =>
            applyAll P base rest (printed ++ [line])
              (if line.applied then failures else failures + 1)

/-- How the script ends: what it printed, and what it ended with when it did
    not run to its end. -/
structure Finish where
  printed : List String
  ended : Option Ended

/-- The exit status: one for a message as well as for an exception. -/
def Finish.code (f : Finish) : Nat :=
  if f.ended.isSome then 1 else 0

def finish (P : Python) : List Line × Except Ended Nat → Finish
  | (printed, .error e) => { printed := printed.map (Line.text P), ended := some e }
  | (printed, .ok failures) =>
      if failures ≠ 0 then
        { printed := printed.map (Line.text P),
          ended := some (.exit (toString failures ++ " manifest(s) failed")) }
      else
        { printed := printed.map (Line.text P) ++ ["all manifests applied"], ended := none }

/-- `url.rstrip("/")`. -/
def rstripSlash (url : String) : String :=
  String.ofList (url.toList.rdropWhile (· == '/'))

/-- The script, with its arguments and the text it explains itself with. -/
def main (P : Python) (F : Files) (doc : String) (argv : List String) :
    Client Request Reply Finish :=
  match argv with
  | _ :: url :: path :: paths =>
      (applyAll P (rstripSlash url) (docs F (path :: paths)) [] 0).bind fun r =>
        .done (finish P r)
  | _ => .done { printed := [], ended := some (.exit doc) }

end Zeroboot.Manifests
