/-
**What an inventory keeps of a script.**

The inventory of a script gathers the occurrences of each component, and it has all functions that are
called as hooks.  Of the imports of one script, though, it has the last one only: what the earlier ones
bind is lost, unless the last one binds it too.  So nothing is lost of a script that imports no script
twice.

Main definitions:

* `Script.Source.lastImport?` — the last import of a script;
* `Script.Source.KeepsImports` — what imports bind is in the inventory.

Main results:

* `Script.Source.get?_imports`, `Script.Source.keepsImports_iff` — the imports that are kept;
* `Script.Source.inventory_exact` — **what the inventory of a script has**;
* `Script.Source.inventory_forgets` — an import that is lost.
-/
import DesignRegistry.Proofs.Json.Content
import DesignRegistry.Proofs.Keyed
import DesignRegistry.Proofs.Text.Pieces
import DesignRegistry.Script.Inventory
import Mathlib.Data.List.Nodup

set_option relaxedAutoImplicit false
set_option autoImplicit false

namespace DesignRegistry

namespace Script

/-- The last value of an attribute, among those of its name. -/
theorem Element.get?_attributeValues (e : Element) (name : String) :
    Keyed.get? name e.attributeValues =
      ((e.attributes.filter fun a => a.name == name).map Attribute.value).getLast? := by
  rw [attributeValues, Keyed.get?_ofPairs, Keyed.valuesOf, List.filter_map, List.map_map]
  rfl

namespace Source

variable {s : Source}

/-! ### Imports -/

/-- The last import of a script. -/
def lastImport? (s : Source) (script : String) : Option Import :=
  (s.importDecls.filter fun i => i.source == script).getLast?

/-- What imports bind is in the inventory under the script that is imported. -/
def KeepsImports (s : Source) : Prop :=
  ∀ i ∈ s.importDecls, ∀ x ∈ i.specifiers, x ∈ (Keyed.get? i.source s.imports).getD []

instance decidableKeepsImports (s : Source) : Decidable s.KeepsImports :=
  inferInstanceAs (Decidable (∀ i ∈ s.importDecls, ∀ x ∈ i.specifiers,
    x ∈ (Keyed.get? i.source s.imports).getD []))

/-- Under a script stands what its last import binds. -/
theorem get?_imports (s : Source) (script : String) :
    Keyed.get? script s.imports = (s.lastImport? script).map Import.specifiers := by
  rw [imports, Keyed.get?_ofPairs, Keyed.valuesOf, List.filter_map, List.map_map, lastImport?,
    List.getLast?_map]
  rfl

/-- A script that is imported has a last import. -/
theorem exists_lastImport? {i : Import} (hi : i ∈ s.importDecls) :
    ∃ last, s.lastImport? i.source = some last := by
  have hmem : i ∈ s.importDecls.filter fun j => j.source == i.source :=
    List.mem_filter.2 ⟨hi, beq_self_eq_true i.source⟩
  exact ⟨_, List.getLast?_eq_some_getLast (List.ne_nil_of_mem hmem)⟩

theorem mem_imports_iff {i : Import} {x : ImportSpecifier} :
    x ∈ (Keyed.get? i.source s.imports).getD [] ↔
      ∃ last, s.lastImport? i.source = some last ∧ x ∈ last.specifiers := by
  rw [get?_imports]
  cases s.lastImport? i.source <;> simp

/-- Imports are kept exactly if the last import of each script binds what the others bind. -/
theorem keepsImports_iff : s.KeepsImports ↔ ∀ i ∈ s.importDecls, ∀ x ∈ i.specifiers,
    ∃ last, s.lastImport? i.source = some last ∧ x ∈ last.specifiers :=
  forall₄_congr fun _ _ _ _ => mem_imports_iff

/-- An import is the last one of a script that is not imported again. -/
theorem lastImport?_of_nodup (h : (s.importDecls.map Import.source).Nodup) {i : Import}
    (hi : i ∈ s.importDecls) : s.lastImport? i.source = some i := by
  have honly : ∀ j ∈ s.importDecls.filter fun j => j.source == i.source, j = i := by
    intro j hj
    obtain ⟨hmem, hsource⟩ := List.mem_filter.1 hj
    exact List.inj_on_of_nodup_map h hmem hi (eq_of_beq hsource)
  obtain ⟨last, hlast⟩ := exists_lastImport? hi
  rw [hlast, honly last (List.mem_of_getLast? hlast)]

theorem keepsImports_of_nodup (h : (s.importDecls.map Import.source).Nodup) : s.KeepsImports :=
  keepsImports_iff.2 fun i hi _ hx => ⟨i, lastImport?_of_nodup h hi, hx⟩

/-! ### Components and hooks -/

/-- The components that occur in a script, in order. -/
def componentElements (s : Source) : List Element := s.elements.filter Element.isComponent

/-- Under each component stand its occurrences in order. -/
theorem components_eq (s : Source) :
    s.components = (s.componentElements.map Element.name).eraseDups.map fun name =>
      (name, (s.componentElements.filter fun e => e.name == name).map Element.attributeValues) := by
  rw [components, Keyed.gather_eq, List.map_map]
  refine List.map_congr_left fun name _ => ?_
  rw [Keyed.valuesOf, List.filter_map, List.map_map]
  rfl

theorem mem_hooks_iff {name : String} : name ∈ s.hooks ↔
    ∃ c ∈ s.calls, c.isMember = false ∧ "use".toList <+: c.callee.toList ∧ c.callee = name := by
  rw [hooks, List.mem_eraseDups, List.mem_map]
  simp only [List.mem_filter, isHook, Bool.and_eq_true, Bool.not_eq_true', Text.hasFront,
    startsWith_iff, and_assoc]

/-! ### Inventories -/

/-- **What the inventory of a script has.**  Of imports: under each script what the last import of it
binds, so nothing is lost exactly if that is all that the imports of it bind, and in any case if no script
is imported twice.  Of components: under each name one record for each occurrence, in order, with the last
value of each attribute.  Of calls: the functions, not members, whose name starts with `use`. -/
theorem inventory_exact (s : Source) :
    (∀ script, Keyed.get? script s.imports = (s.lastImport? script).map Import.specifiers)
      ∧ (s.KeepsImports ↔ ∀ i ∈ s.importDecls, ∀ x ∈ i.specifiers,
          ∃ last, s.lastImport? i.source = some last ∧ x ∈ last.specifiers)
      ∧ ((s.importDecls.map Import.source).Nodup → s.KeepsImports)
      ∧ s.components = (s.componentElements.map Element.name).eraseDups.map (fun name =>
          (name, (s.componentElements.filter fun e => e.name == name).map Element.attributeValues))
      ∧ (∀ e ∈ s.componentElements, ∀ name, Keyed.get? name e.attributeValues =
          ((e.attributes.filter fun a => a.name == name).map Attribute.value).getLast?)
      ∧ (∀ name, name ∈ s.hooks ↔ ∃ c ∈ s.calls,
          c.isMember = false ∧ "use".toList <+: c.callee.toList ∧ c.callee = name)
      ∧ s.hooks.Nodup :=
  ⟨s.get?_imports, keepsImports_iff, keepsImports_of_nodup, s.components_eq,
    fun e _ => e.get?_attributeValues, fun _ => mem_hooks_iff, nodup_eraseDups _⟩

/-- A script with two imports, a component that occurs twice, a hook and a member with the name of one. -/
def declaringScript : String :=
  "import A, { b as c } from 'm';\nimport * as N from 'n';\n" ++
    "const v = useState(<A x=\"1\" x=\"2\"/>);\nN.useRef(<A/>);"

/-- All that it declares is in its inventory. -/
theorem inventory_exact_declaring :
    ∃ s, Source.read "x.jsx" declaringScript = .ok s ∧ (s.importDecls.map Import.source).Nodup
      ∧ s.KeepsImports ∧ s.components = [("A", [[("x", .text "2")], []])] ∧ "useState" ∈ s.hooks
      ∧ "useRef" ∉ s.hooks := by
  have hseen : (Source.read "x.jsx" declaringScript).toOption.map (fun s =>
      (s.importDecls.map Import.source, s.hooks,
        decide (s.components = [("A", [[("x", .text "2")], []])]))) =
          some (["m", "n"], ["useState"], true) := by decide +kernel
  obtain ⟨s, hread, hs⟩ := exists_ok_of_seen hseen
  simp only [Prod.mk.injEq, decide_eq_true_eq] at hs
  obtain ⟨himports, hhooks, hcomponents⟩ := hs
  have hdistinct : (s.importDecls.map Import.source).Nodup := by
    rw [himports]
    decide
  obtain ⟨-, -, hkeeps, -⟩ := s.inventory_exact
  exact ⟨s, hread, hdistinct, hkeeps hdistinct, hcomponents, by rw [hhooks]; decide,
    by rw [hhooks]; decide⟩

/-- A script that imports another one twice. -/
def importingTwice : String := "import { a } from 'm';\nimport { b } from 'm';\n"

/-- What the first of two imports binds is lost. -/
theorem inventory_forgets :
    ∃ s, Source.read "x.js" importingTwice = .ok s ∧ ¬ s.KeepsImports
      ∧ s.importDecls.map Import.specifiers =
          [[⟨.named, "a", some "a"⟩], [⟨.named, "b", some "b"⟩]]
      ∧ Keyed.get? "m" s.imports = some [⟨.named, "b", some "b"⟩] := by
  have hseen : (Source.read "x.js" importingTwice).toOption.map (fun s =>
      (decide s.KeepsImports, s.importDecls.map Import.specifiers, Keyed.get? "m" s.imports)) =
        some (false, [[⟨.named, "a", some "a"⟩], [⟨.named, "b", some "b"⟩]],
          some [⟨.named, "b", some "b"⟩]) := by decide +kernel
  obtain ⟨s, hread, hs⟩ := exists_ok_of_seen hseen
  simp only [Prod.mk.injEq, decide_eq_false_iff_not] at hs
  exact ⟨s, hread, hs.1, hs.2.1, hs.2.2⟩

end Source

end Script

end DesignRegistry
