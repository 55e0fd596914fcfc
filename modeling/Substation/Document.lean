import Substation.Config.Reading
import Substation.Journal.Entry
import Substation.Failure

/-!
# Documents

A document is a configuration together with the registry of its templates. Templates that cannot be
admitted are left out of the registry and reported.
-/

namespace Substation

open Substation.Config
open Substation.Journal
open Substation.Template

/-- A configuration document that has been read (`SclDocument`). -/
structure Document where
  /-- The configuration. -/
  scl : Scl
  /-- The templates. -/
  registry : Registry
  /-- The journal of the reading. -/
  journal : List Entry

/-- Admits a template to the registry, or says why not (`insert_first`). The first template of an id
stays. -/
def register (r : Registry) : Except Refusal Definition → Registry × List Entry
  | .error refusal => (r, [.finding (.refused refusal)])
  | .ok d =>
    (r.insert d, if r.contains d.kind d.id then [.note (.duplicateTemplate d.kind d.id)] else [])

/-- Admits templates one after the other (`from_model`). -/
def registerAll (r : Registry) : List (Except Refusal Definition) → Registry × List Entry
  | [] => (r, [])
  | c :: cs =>
    let (r, entries) := register r c
    let (r, more) := registerAll r cs
    (r, entries ++ more)

/-- The note about the templates that have been admitted. -/
def registryNote (r : Registry) : Note :=
  .registered r.nodeTypes.size r.objectTypes.size r.attributeTypes.size r.enumTypes.size

/-- The registry of a section of templates (`from_model`). -/
def readTypes : Option TypeSection → Registry × List Entry
  | none => ({}, [.note .noTemplates])
  | some s =>
    let (r, entries) := registerAll {} (candidates s)
    (r, entries ++ [.note (registryNote r)])

namespace Document

/-- The document of a configuration. -/
def ofScl (scl : Scl) : Document :=
  let (registry, entries) := readTypes scl.types
  { scl, registry
    journal := entries ++ [.note (.loaded scl.ieds.length (issueLog entries).size)] }

/-- Reads a document (`load_scl_from_str`). -/
def ofText (text : String) : Except Failure Document :=
  match Scl.ofText text with
  | .ok scl => .ok (ofScl scl)
  | .error fault => .error (.document fault)

/-- The issues that were found when the document was read. -/
def issues (d : Document) : IssueLog := issueLog d.journal

/-- The first IED of a name (`SclDocument::ied`). -/
def ied? (d : Document) (name : String) : Option Ied := d.scl.ieds.find? (·.name = name)

/-- The connection of an access point (`SclDocument::connected_ap`). -/
def connectedAp? (d : Document) (ap ied : String) : Option ConnectedAp :=
  d.scl.communication.bind (·.connectedAp? ap ied)

end Document

end Substation
