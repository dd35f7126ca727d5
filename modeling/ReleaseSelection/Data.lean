/-!
# Structured data

The value that documents, settings and records share: fixtures are read from it and written to it,
and layers of settings are merged in it. Records keep every member in the order it was written.
-/

namespace ReleaseSelection

/-- `unreadable` is a part of a document that is well formed but stands for no value, such as a
number beyond every range. -/
inductive Data where
  | null
  | bool (b : Bool)
  | int (n : Int)
  | float (x : Float)
  | text (s : String)
  | list (items : List Data)
  | record (members : List (String × Data))
  | unreadable
  deriving Repr, Inhabited

namespace Data

def members : Data → List (String × Data)
  | .record ms => ms
  | _ => []

def member? (name : String) (d : Data) : Option Data := d.members.lookup name

/-- Changes the value of a member, if there is one. -/
def mapMember (name : String) (f : Data → Data) : Data → Data
  | .record ms => .record (ms.map fun m => if m.1 = name then (m.1, f m.2) else m)
  | d => d

end Data

end ReleaseSelection
