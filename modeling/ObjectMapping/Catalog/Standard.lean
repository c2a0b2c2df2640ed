import ObjectMapping.Catalog

/-! # The standard catalog

The types that are known when no catalog file says otherwise. -/

namespace ObjectMapping

namespace Catalog

/-- The standard types of governance, in order. -/
def governanceTypes : List TypeName :=
  [⟨"Contract"⟩, ⟨"Control"⟩, ⟨"Objective"⟩, ⟨"Policy"⟩, ⟨"Regulation"⟩, ⟨"Requirement"⟩,
   ⟨"Risk"⟩, ⟨"Standard"⟩, ⟨"Threat"⟩]

/-- The standard types of objects in scope, in order. -/
def scopeTypes : List TypeName :=
  [⟨"AccessGroup"⟩, ⟨"DataAsset"⟩, ⟨"Facility"⟩, ⟨"KeyReport"⟩, ⟨"Market"⟩, ⟨"Metric"⟩,
   ⟨"OrgGroup"⟩, ⟨"Process"⟩, ⟨"Product"⟩, ⟨"ProductGroup"⟩, ⟨"Project"⟩, ⟨"System"⟩,
   ⟨"TechnologyEnvironment"⟩, ⟨"Vendor"⟩]

/-- The standard types, in order. -/
def standardTypes : List TypeInfo :=
  [TypeInfo.ofName ⟨"Program"⟩ .programs,
   { TypeInfo.ofName ⟨"Audit"⟩ .audit with snapshotParent := true, constraint := some .unlocked },
   { TypeInfo.ofName ⟨"Assessment"⟩ .audit with auditScope := true },
   { TypeInfo.ofName ⟨"AssessmentTemplate"⟩ .audit with auditScope := true },
   { TypeInfo.ofName ⟨"Issue"⟩ .audit with auditScope := true },
   { TypeInfo.ofName ⟨"Person"⟩ .entities with displayName := "Person", plural := "People" },
   TypeInfo.ofName ⟨"Document"⟩ .entities,
   { TypeInfo.ofName ⟨"Evidence"⟩ .entities with
     displayName := "Evidence", plural := "Evidence" },
   { TypeInfo.ofName ⟨"Workflow"⟩ .other with constraint := some .ownedByCurrentUser }] ++
  governanceTypes.map (fun n => { TypeInfo.ofName n .governance with snapshotable := true }) ++
  scopeTypes.map (fun n => { TypeInfo.ofName n .scope with snapshotable := true })

/-- **The standard catalog.** -/
def standard : Catalog := ofTypes standardTypes

end Catalog

end ObjectMapping
