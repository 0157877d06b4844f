import PageScript.Variables.Writing

/-! # Properties as the embedding program sees them

Reads and writes from outside pass over whatever goes wrong.
-/

set_option autoImplicit false

namespace PageScript.Script

/-- Reads a property; what cannot be read is undefined. -/
def getProperty (object : ObjectId) (name : String) : Script Value :=
  orElse (readMember (.ref object) name) .undefined

/-- Writes a property. -/
def setProperty (object : ObjectId) (name : String) (v : Value) : Script Unit := do
  let _ ← orElse (writeMember object name v) v

/-- Lets a hook of the embedding program answer for a variable of an object, which is made if there
is none. -/
def addHook (object : ObjectId) (name behavior : String) (owner : ObjectId) : Script Unit :=
  modifyObject object (·.updateOrPush name fun v =>
    { v with link := .hook (.host behavior) owner })

end PageScript.Script
