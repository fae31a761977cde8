import PropertyList.Value.Schema

/-!
A catalog of records. People with an address, and the teams that they are in, are tried out as values
and as records made from trees; people without one, who own profiles, on the way through a document
and back. The two kinds of people have one name, and are of different modules.
-/
namespace PropertyList.Schema

variable (path : Text)

/-- A member of a team. An address may be missing. -/
def person : Schema where
  className := ⟨path, text "Person"⟩
  fields := [
    (text "name", .string, none),
    (text "age", .integer, none),
    (text "email", .optional .string, some .null)]

def team : Schema where
  className := ⟨path, text "Team"⟩
  fields := [
    (text "title", .string, none),
    (text "members", .list (person path).type, none)]

/-- The owner of a profile. -/
def owner : Schema where
  className := ⟨path, text "Person"⟩
  fields := [
    (text "name", .string, none),
    (text "age", .integer, none)]

def colors : List Text := [text "red", text "blue"]

/-- A profile that belongs to a record of some kind. -/
def profileOf (owner : Schema) : Schema where
  className := ⟨path, text "Profile"⟩
  fields := [
    (text "title", .string, none),
    (text "owner", owner.type, none),
    (text "tags", .list .string, none),
    (text "color", .choice ⟨path, text "Color"⟩ colors, none),
    (text "active", .boolean, none),
    (text "created", .moment, none),
    (text "avatar", .bytes, none)]

def profile : Schema := profileOf path (owner path)

/-- All of them, and profiles that belong to members of teams. -/
def catalog : List Schema :=
  [person path, team path, owner path, profile path, profileOf path (person path)]

end PropertyList.Schema
