import RoleAccess.Log.Preview
import RoleAccess.Permission

namespace RoleAccess

-- Why something cannot be asked for: it is neither a token nor a collection, or one of the
-- things in the collection is no token.
inductive RequestError where
  | notCollection (kind : Kind)
  | notToken (kind : Kind)
  deriving DecidableEq

namespace RequestError

def message : RequestError → String
  | notCollection kind => s!"'{kind.name}' object is not iterable"
  | notToken .bytes => "a bytes-like object is required, not 'str'"
  | notToken kind => s!"'{kind.name}' object has no attribute 'partition'"

end RequestError

-- A token that is asked for, and what its action is called in words.
structure Asked where
  token : String
  action : String
  deriving DecidableEq

namespace Asked

-- A text is a token. A level stands for its name, and in words it is called as it is shown.
def ofValue? : Value → Except RequestError Asked
  | .text token => .ok ⟨token, (Permission.parse token).action⟩
  | .level l => .ok ⟨l.name, (Value.level l).shown⟩
  | v => .error (.notToken v.kind)

-- The tokens in front of the first thing that is none, and what is wrong with that one.
def readAll : List Value → List Asked × Option RequestError
  | [] => ([], none)
  | v :: vs =>
    match ofValue? v with
    | .error e => ([], some e)
    | .ok asked =>
      let (rest, flaw) := readAll vs
      (asked :: rest, flaw)

-- Texts are read to the end.
theorem readAll_texts (tokens : List String) :
    readAll (tokens.map .text) =
      (tokens.map fun token => ⟨token, (Permission.parse token).action⟩, none) := by
  induction tokens with
  | nil => rfl
  | cons token tokens ih => simp [readAll, ofValue?, ih]

end Asked

-- What is asked for: one token, or any one of several. Several are read from the front, so a flaw
-- counts only once all tokens before it have been considered. What they come in may be anything
-- that can be gone through: in records it is shown by a text, if there is one.
inductive Request where
  | one (asked : Asked)
  | any (asked : List Asked) (flaw : Option RequestError) (shown : Except ShowError String)

namespace Request

def asked : Request → List Asked
  | one asked => [asked]
  | any asked _ _ => asked

def tokens (request : Request) : List String := request.asked.map (·.token)

def flaw? : Request → Option RequestError
  | one _ => none
  | any _ flaw _ => flaw

-- The line by which a record shows what was asked for.
def preview? : Request → Except ShowError String
  | one asked => .ok (preview (.text asked.token) Preview.defaultLimit)
  | any _ _ shown => shown.map fun s => preview (.text s) Preview.defaultLimit

-- A text is a token, and a collection is a choice between what is in it.
def ofValue (v : Value) : Request :=
  match Asked.ofValue? v with
  | .ok asked => one asked
  | .error _ =>
    let shown := v.within .standard (Preview.textOf v)
    match v.elements? with
    | none => any [] (some (.notCollection v.kind)) shown
    | some items =>
      let (asked, flaw) := Asked.readAll items
      any asked flaw shown

end Request

end RoleAccess
