import TraceFold.Json.Printer
import TraceFold.Json.Schema

/-!
# The JSON form of accounts

An account is a record of its address and its interfaces; the interfaces may be left out.
-/

namespace TraceFold

def Address.toJson (a : Address) : Json := .ofText a.toText

def Interfaces.toJson (i : Interfaces) : Json := .ofText i.toText

namespace Account

def toJson (a : Account) : Json :=
  .record [("address", a.address.toJson), ("interfaces", a.interfaces.toJson)]

def fields : List (Json.Field Account) :=
  [.require "address" Json.readAddress fun address a => { a with address },
   .optional "interfaces" Json.readInterfaces fun interfaces a => { a with interfaces }]

/-- The fields of a record, if there is a level left for it. -/
def fieldsAt : Nat → Option (List (Json.Field Account))
  | 0 => none
  | _ + 1 => some fields

def ofJson (levels : Nat) (v : Json) : Json.Decoded Account :=
  Json.readRecord (fieldsAt levels) default v

end Account
end TraceFold
