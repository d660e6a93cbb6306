import DomainModel.Json.Record
import DomainModel.Layout.PositionCache
import DomainModel.Validation

namespace DomainModel

open Json (Fault Field Fields Record Node)

inductive ViewKind where
  | tree
  | graph
  deriving DecidableEq, Repr

namespace ViewKind

def name : ViewKind → String
  | .tree => "tree"
  | .graph => "graph"

def choices : List (String × ViewKind) := [("tree", .tree), ("graph", .graph)]

def ofText (text : String) : Except String ViewKind :=
  let lower := String.ofList (text.toList.map Char.toLower)
  match choices.lookup lower with
  | some kind => .ok kind
  | none => .error ("unknown view `" ++ lower ++ "`, expected `tree` or `graph`")

end ViewKind

structure ViewSettings where
  default : ViewKind := .tree
  deriving DecidableEq, Repr

structure Settings where
  layout : Layout := {}
  validation : ValidationSettings := {}
  view : ViewSettings := {}
  deriving DecidableEq

structure SettingsReaders (σ : Type) where
  single : σ → Except Fault Float32
  boolean : σ → Except Fault Bool
  viewKind : σ → Except Fault ViewKind

namespace SettingsReaders

variable {σ : Type} (readers : SettingsReaders σ)

def layout : Record σ Layout where
  name := "LayoutConfig"
  fields :=
    .cons { name := "origin_x", read := readers.single, absent := some ({} : Layout).originX } <|
    .cons
      { name := "row_spacing", read := readers.single, absent := some ({} : Layout).rowSpacing }
      .nil
  build := fun (originX, rowSpacing, _) => { originX, rowSpacing }

def validation : Record σ ValidationSettings where
  name := "ValidationConfig"
  fields :=
    .cons { name := "capitalized_person_names", read := readers.boolean, absent := some true } .nil
  build := fun (capitalizedPersons, _) => { capitalizedPersons }

def view : Record σ ViewSettings where
  name := "ViewConfig"
  fields :=
    .cons { name := "default", read := readers.viewKind, absent := some .tree } .nil
  build := fun (default, _) => { default }

def settings (read : {α : Type} → Record σ α → σ → Except Fault α) : Record σ Settings where
  name := "AppConfig"
  fields :=
    .cons { name := "layout", read := read readers.layout, absent := some {} } <|
    .cons { name := "validation", read := read readers.validation, absent := some {} } <|
    .cons { name := "view", read := read readers.view, absent := some {} } .nil
  build := fun (layout, validation, view, _) => { layout, validation, view }

def ofNode : SettingsReaders Node where
  single := Node.single
  boolean := Node.boolean
  viewKind := Node.choice ViewKind.choices

end SettingsReaders

def Settings.ofJson (text : String) : Except Json.Error Settings :=
  Json.decode (SettingsReaders.ofNode.settings fun record => record.ofNode).ofNode text

end DomainModel
