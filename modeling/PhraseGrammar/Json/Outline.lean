import PhraseGrammar.Grammar.Outline
import PhraseGrammar.Json.Basic

/-!
# Outlines in JSON

A node of the tree has a name and its children; a leaf has only a name.
-/

namespace PhraseGrammar.Outline

def treeNode (name : String) (children : List (Json Text)) : Json Text :=
  .object [("name", .string name), ("children", .array children)]

def Group.toJson (group : Group) : Json Text :=
  treeNode group.name (group.members.map fun member => .object [("name", .string member)])

def Entry.toJson (entry : Entry) : Json Text :=
  treeNode entry.name (entry.groups.map Group.toJson)

def toJson (outline : Outline) : Json Text :=
  treeNode outline.name (outline.entries.map Entry.toJson)

end PhraseGrammar.Outline
