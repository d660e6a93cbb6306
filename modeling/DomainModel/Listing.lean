import DomainModel.Diagnostic.Basic
import DomainModel.Json.Value

namespace DomainModel

open Json (Value)

structure ListingEntry where
  severity : String
  location : Option String
  source : Option String
  code : Option String
  deriving DecidableEq, Repr

structure ListingGroup where
  message : String
  entries : List ListingEntry
  deriving DecidableEq, Repr

structure Listing where
  groups : List ListingGroup := []
  deriving DecidableEq, Repr

namespace Listing

def entry (d : Diagnostic) : ListingEntry where
  severity := d.severity.name
  location := d.target.map Target.text
  source := d.source
  code := d.code.map DiagnosticCode.text

def addTo (message : String) (entry : ListingEntry) : List ListingGroup → List ListingGroup
  | [] => [⟨message, [entry]⟩]
  | group :: groups =>
    if group.message = message then { group with entries := group.entries ++ [entry] } :: groups
    else group :: addTo message entry groups

def add (listing : Listing) (d : Diagnostic) : Listing :=
  ⟨addTo d.message (entry d) listing.groups⟩

def ofDiagnostics (ds : List Diagnostic) : Listing := ds.foldl add {}

def size (listing : Listing) : Nat := listing.groups.length

def isEmpty (listing : Listing) : Bool := listing.groups.isEmpty

def entryCount (listing : Listing) : Nat :=
  listing.groups.foldr (fun group count => group.entries.length + count) 0

def entryLines (message : String) (entry : ListingEntry) : List String :=
  ["  " ++ entry.location.getD entry.severity ++ ": " ++ message,
    "    Source: " ++ entry.source.getD "-" ++ " | Code: " ++ entry.code.getD "-"]

def groupLines (group : ListingGroup) : List String :=
  group.message :: group.entries.flatMap (entryLines group.message)

def lines (listing : Listing) : List String := listing.groups.flatMap groupLines

def text (listing : Listing) : String := String.join (listing.lines.map (· ++ "\n"))

def entryValue (entry : ListingEntry) : Value :=
  .object [
    ("severity", .string entry.severity), ("location", .ofText? entry.location),
    ("source", .ofText? entry.source), ("code", .ofText? entry.code)]

def groupMember (group : ListingGroup) : String × Value :=
  (group.message, .array (group.entries.map entryValue))

def toValue (listing : Listing) : Value :=
  .object [("groups", .object (listing.groups.map groupMember))]

end Listing

end DomainModel
