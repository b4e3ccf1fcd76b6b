import ProgramCheck.Proofs.ImportFaults
import ProgramCheck.Proofs.Lockstep
import ProgramCheck.Proofs.NameFolding
import ProgramCheck.Proofs.RepeatedModules

/-!
# Names of modules in capitals

The rule on imports and the rule on modules compare names by their lower case forms, so they do not
see the case of ASCII letters. If the names of imports and of modules are respelled in all trees of
all runs, both rules report at the same nodes, with the same severities, and their messages differ
only in the name that they quote. The lower case form of a letter may depend on the letters around
it, but not on their case.
-/

namespace ProgramCheck

/-! ### Respelled trees -/

/-- Whether two nodes are the same up to the case of ASCII letters in the name of an import or of a
module. -/
inductive NodeKind.Respells : NodeKind → NodeKind → Prop
  | same (k : NodeKind) : Respells k k
  | importDecl {i i' : Import} (h : sameIgnoringAsciiCase i.moduleName i'.moduleName = true) :
    Respells (.importDecl i) (.importDecl i')
  | moduleDecl {m : Module} {name : String} (h : sameIgnoringAsciiCase m.name name = true) :
    Respells (.moduleDecl m) (.moduleDecl { m with name := name })

/-- Whether two trees have the same nodes, up to the case of ASCII letters in the names of imports
and of modules. The positions of the nodes and the names of the trees may differ. -/
structure Tree.Respells (t t' : Tree) : Prop where
  root : t'.root = t.root
  kinds : List.Forall₂ NodeKind.Respells (t.nodes.toList.map Node.kind)
    (t'.nodes.toList.map Node.kind)

/-- Whether one node of two respelled trees is meant. -/
def Tree.RespelledAt (t t' : Tree) (id id' : NodeId) : Prop := t.Respells t' ∧ id' = id

theorem sameIgnoringAsciiCase_refl (s : String) : sameIgnoringAsciiCase s s = true :=
  beq_self_eq_true _

/-- Lists of related members have related members, or none, at each index. -/
theorem rel_getElem?_of_forall₂ {α β : Type} {R : α → β → Prop} {as : List α} {bs : List β}
    (h : List.Forall₂ R as bs) (n : Nat) : Option.Rel R as[n]? bs[n]? := by
  induction h generalizing n with
  | nil => exact .none
  | cons hab _ ih =>
    cases n with
    | zero => exact .some hab
    | succ n => exact ih n

namespace NodeKind.Respells

variable {k k' : NodeKind} (h : k.Respells k')
include h

theorem sort : k'.sort = k.sort := by cases h <;> rfl

theorem walkedSlots : k'.walkedSlots = k.walkedSlots := by cases h <;> rfl

end NodeKind.Respells

namespace Tree.Respells

variable {t t' : Tree} (h : t.Respells t') {id : NodeId}
include h

theorem kind? (id : NodeId) : Option.Rel NodeKind.Respells (t.kind? id) (t'.kind? id) := by
  simpa [Forest.kind?] using rel_getElem?_of_forall₂ h.kinds id

theorem of_kind? {k k' : NodeKind} (hk : t.kind? id = some k) (hk' : t'.kind? id = some k') :
    k.Respells k' := by
  have hkind := h.kind? id
  rw [hk, hk'] at hkind
  cases hkind with
  | some hkind => exact hkind

theorem sort? (id : NodeId) : t'.sort? id = t.sort? id := by
  have hkind := h.kind? id
  rw [Forest.sort?, Forest.sort?]
  generalize t.kind? id = k, t'.kind? id = k' at hkind
  cases hkind with
  | none => rfl
  | some hk => exact congrArg some hk.sort

theorem walkedSlots (id : NodeId) : t'.walkedSlots id = t.walkedSlots id := by
  have hkind := h.kind? id
  rw [Forest.walkedSlots, Forest.walkedSlots]
  generalize t.kind? id = k, t'.kind? id = k' at hkind
  cases hkind with
  | none => rfl
  | some hk => exact hk.walkedSlots

theorem import? (id : NodeId) :
    Option.Rel (fun i i' => sameIgnoringAsciiCase i.moduleName i'.moduleName = true)
      (t.import? id) (t'.import? id) := by
  have hkind := h.kind? id
  rw [Forest.import?, Forest.import?]
  generalize t.kind? id = k, t'.kind? id = k' at hkind
  cases hkind with
  | none => exact .none
  | @some k _ hk =>
    cases hk with
    | importDecl hname => exact .some hname
    | moduleDecl => exact .none
    | same =>
      cases k with
      | importDecl i => exact .some (sameIgnoringAsciiCase_refl _)
      | _ => exact .none

theorem module? (id : NodeId) :
    Option.Rel (fun m m' => sameIgnoringAsciiCase m.name m'.name = true)
      (t.module? id) (t'.module? id) := by
  have hkind := h.kind? id
  rw [Forest.module?, Forest.module?]
  generalize t.kind? id = k, t'.kind? id = k' at hkind
  cases hkind with
  | none => exact .none
  | @some k _ hk =>
    cases hk with
    | importDecl => exact .none
    | moduleDecl hname => exact .some hname
    | same =>
      cases k with
      | moduleDecl m => exact .some (sameIgnoringAsciiCase_refl _)
      | _ => exact .none

/-- Respelled modules resolve the same names. -/
theorem resolves_iff (name : String) : Resolves [t'] name ↔ Resolves [t] name := by
  simp only [Resolves, List.mem_singleton, exists_eq_left]
  refine exists_congr fun id => ?_
  have hmodule := h.module? id
  generalize t.module? id = m, t'.module? id = m' at hmodule
  cases hmodule with
  | none => simp
  | some hname => simp [lowercase_eq_of_sameIgnoringAsciiCase hname]

theorem lockstep : t.Lockstep (t.RespelledAt t') t' where
  root := ⟨h, h.root⟩
  sort? := fun ⟨_, hid⟩ => hid ▸ h.sort? _
  slots := by
    rintro id id' ⟨-, hid⟩
    rw [hid, h.walkedSlots id]
    exact List.forall₂_same.2 fun slot _ => ⟨rfl, h, rfl⟩

end Tree.Respells

/-! ### What is visited -/

/-- What is visited under one number in two respelled trees. -/
inductive Visit.Respells (t t' : Tree) : Visit → Visit → Prop
  | moduleDecl {id : NodeId} {m m' : Module} (hm : t.module? id = some m)
    (hm' : t'.module? id = some m') (hname : sameIgnoringAsciiCase m.name m'.name = true) :
    Respells t t' ⟨id, .moduleDecl m⟩ ⟨id, .moduleDecl m'⟩
  | other {v : Visit} (hv : ∀ m, v.subject ≠ .moduleDecl m) : Respells t t' v v

theorem Tree.Respells.visits {t t' : Tree} (h : t.Respells t') {id : NodeId} {v v' : Visit}
    (hv : t.visit? id = some v) (hv' : t'.visit? id = some v') : Visit.Respells t t' v v' := by
  obtain ⟨x, hx, rfl⟩ := Option.map_eq_some_iff.1 hv
  obtain ⟨x', hx', rfl⟩ := Option.map_eq_some_iff.1 hv'
  obtain ⟨k, hk, hx⟩ := Option.bind_eq_some_iff.1 hx
  obtain ⟨k', hk', hx'⟩ := Option.bind_eq_some_iff.1 hx'
  have hkind := h.of_kind? hk hk'
  cases hkind with
  | importDecl => cases hx
  | moduleDecl hname =>
    cases hx
    cases hx'
    exact .moduleDecl (Forest.module?_eq_some_iff.2 hk) (Forest.module?_eq_some_iff.2 hk') hname
  | same =>
    obtain rfl := Option.some.inj (hx.symm.trans hx')
    cases k with
    | moduleDecl m =>
      cases hx
      exact .moduleDecl (Forest.module?_eq_some_iff.2 hk) (Forest.module?_eq_some_iff.2 hk')
        (sameIgnoringAsciiCase_refl _)
    | importDecl | structDecl | fieldDecl | parameterDecl => cases hx
    | _ =>
      cases hx
      exact .other nofun

theorem moduleKeys_concat_of_respells {s s' : Stage} (hs : s.Lockstep Tree.RespelledAt s')
    {history history' : List Stage}
    (h : Builtin.moduleKeys history' = Builtin.moduleKeys history) :
    Builtin.moduleKeys (history' ++ [s']) = Builtin.moduleKeys (history ++ [s]) := by
  obtain @⟨place, t, t', v, v', ⟨ht, hid⟩, hv, hv'⟩ := hs
  have hvisits := ht.visits hv (hid ▸ hv')
  rw [Builtin.moduleKeys_concat, Builtin.moduleKeys_concat, h]
  cases hvisits with
  | moduleDecl _ _ hname =>
    simp only [Stage.module?, Option.map_some, lowercase_eq_of_sameIgnoringAsciiCase hname]
  | other hother =>
    obtain ⟨id, subject⟩ := v
    cases subject with
    | moduleDecl m => exact absurd rfl (hother m)
    | _ => rfl

theorem moduleKeys_append_of_respells {stages stages' : List Stage}
    (hstages : List.Forall₂ (Stage.Lockstep Tree.RespelledAt) stages stages')
    {history history' : List Stage}
    (h : Builtin.moduleKeys history' = Builtin.moduleKeys history) :
    Builtin.moduleKeys (history' ++ stages') = Builtin.moduleKeys (history ++ stages) := by
  induction hstages generalizing history history' with
  | nil => rwa [List.append_nil, List.append_nil]
  | cons hs _ ih =>
    rw [List.append_cons, List.append_cons history]
    exact ih (moduleKeys_concat_of_respells hs h)

/-! ### What is reported -/

/-- Whether two diagnostics complain about the name of one node of two trees in the same way. Each
of them stands at the position of the node in its tree, and quotes the name that the node has there;
these names are the same up to the case of ASCII letters. -/
inductive Diagnostic.Respells (t t' : Tree) : Diagnostic → Diagnostic → Prop
  | repeatedImport {id : NodeId} {i i' : Import} (hi : t.import? id = some i)
    (hi' : t'.import? id = some i')
    (hname : sameIgnoringAsciiCase i.moduleName i'.moduleName = true) :
    Respells t t' ⟨.warning, t.position id, "Duplicate import of module '" ++ i.moduleName ++ "'."⟩
      ⟨.warning, t'.position id, "Duplicate import of module '" ++ i'.moduleName ++ "'."⟩
  | unresolvedImport {id : NodeId} {i i' : Import} (hi : t.import? id = some i)
    (hi' : t'.import? id = some i')
    (hname : sameIgnoringAsciiCase i.moduleName i'.moduleName = true) :
    Respells t t' ⟨.error, t.position id, "Could not resolve import '" ++ i.moduleName ++ "'."⟩
      ⟨.error, t'.position id, "Could not resolve import '" ++ i'.moduleName ++ "'."⟩
  | repeatedModule {id : NodeId} {m m' : Module} (hm : t.module? id = some m)
    (hm' : t'.module? id = some m') (hname : sameIgnoringAsciiCase m.name m'.name = true) :
    Respells t t' ⟨.error, t.position id, "Duplicate module '" ++ m.name ++ "'."⟩
      ⟨.error, t'.position id, "Duplicate module '" ++ m'.name ++ "'."⟩

/-- Whether two replies are given at one node of two respelled trees at one place, with diagnostics
that complain about the same. -/
structure Reply.Respells (x x' : Reply) : Prop where
  place : x'.context.place = x.context.place
  trees : x.context.tree.Respells x'.context.tree
  node : x'.visit.id = x.visit.id
  reports : List.Forall₂ (Diagnostic.Respells x.context.tree x'.context.tree) x.reports x'.reports

namespace Tree.Respells

variable {t t' : Tree} (h : t.Respells t')
include h

theorem program : t'.program = t.program := by
  have hkind := h.of_kind? t.kind?_root (h.root ▸ t'.kind?_root)
  generalize t.program = p, t'.program = p' at hkind
  cases hkind
  rfl

theorem importsReports {known known' : List String}
    (hknown : ∀ name, lowercase name ∈ known' ↔ lowercase name ∈ known) (before : List String)
    (ids : List NodeId) :
    List.Forall₂ (Diagnostic.Respells t t') (t.importsReports known before ids)
      (t'.importsReports known' before ids) := by
  induction ids generalizing before with
  | nil => exact .nil
  | cons id ids ih =>
    have himport := h.import? id
    rw [Tree.importsReports, Tree.importsReports]
    generalize hi : t.import? id = i, hi' : t'.import? id = i' at himport
    cases himport with
    | none => exact ih before
    | some hname =>
      have hlower := lowercase_eq_of_sameIgnoringAsciiCase hname
      simp only [importReports, hknown, ← hlower]
      refine List.rel_append (List.rel_append ?_ ?_) (ih _)
      · split
        · exact .cons (.repeatedImport hi hi' hname) .nil
        · exact .nil
      · split
        · exact .nil
        · exact .cons (.unresolvedImport hi hi' hname) .nil

end Tree.Respells

namespace Builtin

variable {b : Builtin} (hb : b = .importResolution ∨ b = .duplicateModule)
  {trees trees' : List Tree} (hresolves : ∀ name, Resolves trees' name ↔ Resolves trees name)
include hb hresolves

theorem reports_respells {t t' : Tree} (h : t.Respells t') {v v' : Visit}
    (hvisits : Visit.Respells t t' v v') {history history' : List Stage}
    (hkeys : moduleKeys history' = moduleKeys history) :
    List.Forall₂ (Diagnostic.Respells t t') (b.reports trees history t v)
      (b.reports trees' history' t' v') := by
  rcases hb with rfl | rfl
  · -- only programs are looked at, and these are the same
    cases hvisits with
    | moduleDecl => exact .nil
    | other =>
      obtain ⟨id, subject⟩ := v
      cases subject with
      | program p =>
        refine h.importsReports (fun name => ?_) [] p.imports
        rw [mem_lowercase_moduleNames_iff, mem_lowercase_moduleNames_iff, hresolves]
      | _ => exact .nil
  · -- only modules are looked at, and these have one name in lower case
    cases hvisits with
    | moduleDecl hm hm' hname =>
      have hlower := lowercase_eq_of_sameIgnoringAsciiCase hname
      simp only [reports, moduleReports, ← mem_moduleKeys_iff, hkeys, ← hlower]
      split
      · exact .cons (.repeatedModule hm hm' hname) .nil
      · exact .nil
    | other hother =>
      obtain ⟨id, subject⟩ := v
      cases subject with
      | moduleDecl m => exact absurd rfl (hother m)
      | _ => exact .nil

theorem Tells.respells {history history' : List Stage} {before before' xs xs' : List Reply}
    (h : b.Tells trees history before xs) (h' : b.Tells trees' history' before' xs')
    (hstages : List.Forall₂ (Stage.Lockstep Tree.RespelledAt) (xs.map Reply.stage)
      (xs'.map Reply.stage))
    (hkeys : moduleKeys (history' ++ before'.map Reply.stage) =
      moduleKeys (history ++ before.map Reply.stage)) :
    List.Forall₂ Reply.Respells xs xs' := by
  rw [List.forall₂_map_left_iff, List.forall₂_map_right_iff] at hstages
  induction hstages generalizing before before' with
  | nil => exact .nil
  | @cons x x' xs xs' hs _ ih =>
    obtain ⟨hx, hxs⟩ := along_cons.1 h
    obtain ⟨hx', hxs'⟩ := along_cons.1 h'
    have hnext : moduleKeys (history' ++ (before' ++ [x']).map Reply.stage) =
        moduleKeys (history ++ (before ++ [x]).map Reply.stage) := by
      rw [List.map_append, List.map_append, ← List.append_assoc, ← List.append_assoc]
      exact moduleKeys_concat_of_respells hs hkeys
    refine .cons ?_ (ih hxs hxs' hnext)
    obtain ⟨hplace, ⟨htree, hid⟩, hv, hv'⟩ := hs.of_visit
    refine ⟨hplace, htree, hid, ?_⟩
    rw [hx, hx']
    exact reports_respells hb hresolves htree (htree.visits hv (hid ▸ hv')) hkeys

end Builtin

/-! ### Runs -/

/-- Whether two compilations have respelled trees, one by one. -/
def Compilation.Respells (c c' : Compilation) : Prop := List.Forall₂ Tree.Respells c.trees c'.trees

theorem Compilation.Respells.lockstep {c c' : Compilation} (h : c.Respells c') :
    List.Forall₂ (fun t t' => t.Lockstep (t.RespelledAt t') t') c.trees c'.trees :=
  List.Forall₂.imp (fun _ _ => Tree.Respells.lockstep) h

section Runs

variable {cs cs' : List Compilation} (h : List.Forall₂ Compilation.Respells cs cs')
include h

theorem allVisits_iff_of_respells :
    (∀ c ∈ cs, AllVisits c.stages) ↔ ∀ c ∈ cs', AllVisits c.stages :=
  forall_mem_iff_of_forall₂ h fun _ _ hc => Compilation.allVisits_iff_of_lockstep hc.lockstep

/-- The walks of all runs are in lockstep. -/
theorem forall₂_stages_of_respells (hvisits : ∀ c ∈ cs, AllVisits c.stages) :
    List.Forall₂ (Stage.Lockstep Tree.RespelledAt) (cs.flatMap Compilation.stages)
      (cs'.flatMap Compilation.stages) := by
  refine List.rel_flatten (List.rel_map ?_ ((List.forall₂_and_left _ _).2 ⟨hvisits, h⟩))
  rintro c c' ⟨hvisits, hc⟩
  exact Compilation.forall₂_stages_of_lockstep hc.lockstep hvisits

end Runs

namespace Analyzer

open Analysis

/-- In a run among respelled ones the rule replies the same, node by node. -/
theorem forall₂_column_of_respells {a : Analyzer} {i : Nat} {b : Builtin}
    (hb : b = .importResolution ∨ b = .duplicateModule)
    (hi : a.rules[i]? = some b.rule.activate) {cs cs' : List Compilation}
    (h : List.Forall₂ Compilation.Respells cs cs') {results results' : List Analysis}
    (hresults : a.analyzeEach cs = .ok results) (hresults' : a.analyzeEach cs' = .ok results')
    {k : Nat} {c c' : Compilation} (hc : cs[k]? = some c) (hc' : cs'[k]? = some c')
    {rows rows' : List (List Reply)} (hrows : (a.history cs)[k]? = some rows)
    (hrows' : (a.history cs')[k]? = some rows') :
    List.Forall₂ Reply.Respells (column i rows) (column i rows') := by
  have hvisits := allVisits_of_analyzeEach hresults
  have hrespells : c.Respells c' := by
    have hboth := rel_getElem?_of_forall₂ h k
    rw [hc, hc'] at hboth
    cases hboth with
    | some hrespells => exact hrespells
  -- the rule begins the run with the same names behind it, and goes through it in lockstep
  have hkeys := moduleKeys_append_of_respells
    (forall₂_stages_of_respells (List.forall₂_take k h) fun c hc =>
      hvisits c (List.mem_of_mem_take hc))
    (rfl : Builtin.moduleKeys [] = Builtin.moduleKeys [])
  have hstages := Compilation.forall₂_stages_of_lockstep hrespells.lockstep
    (hvisits c (List.mem_of_getElem? hc))
  obtain ⟨htells, hwalk⟩ := tells_history hresults hi hc hrows
  obtain ⟨htells', hwalk'⟩ := tells_history hresults' hi hc' hrows'
  rw [← hwalk, ← hwalk'] at hstages
  refine htells.respells hb ?_ htells' hstages (by simpa using hkeys)
  exact resolves_iff_of_forall₂ (List.Forall₂.imp (fun _ _ => Tree.Respells.resolves_iff) hrespells)

/-- **Names of modules are matched up to the case of ASCII letters.** Let the names of imports and
of modules be respelled in the trees of some runs, where nothing but the case of ASCII letters
changes. A walk meets a node out of place before if and only if it does afterwards. If none does and
the other rules answer, all runs come to their ends. In runs that do, the rule on imports and the
rule on modules report at the same nodes, in the same order and with the same severities, and each
message differs from the one before only in the name that it quotes. -/
theorem reports_respelled {a : Analyzer} {i : Nat} {b : Builtin}
    (hb : b = .importResolution ∨ b = .duplicateModule)
    (hi : a.rules[i]? = some b.rule.activate) {cs cs' : List Compilation}
    (h : List.Forall₂ Compilation.Respells cs cs') :
    ((∀ c ∈ cs, AllVisits c.stages) ↔ ∀ c ∈ cs', AllVisits c.stages) ∧
    ((∀ c ∈ cs, AllVisits c.stages) →
      (∀ x ∈ a.rules, x.rule = b.rule ∨ ∀ c ∈ cs ++ cs', ∀ s ∈ c.stages, x.rule.Answers s) →
      ∃ results results', a.analyzeEach cs = .ok results ∧ a.analyzeEach cs' = .ok results') ∧
    ∀ results results', a.analyzeEach cs = .ok results → a.analyzeEach cs' = .ok results' →
      ∀ (k : Nat) (c c' : Compilation), cs[k]? = some c → cs'[k]? = some c' →
        ∃ rows rows' result result', (a.history cs)[k]? = some rows ∧
          (a.history cs')[k]? = some rows' ∧ results[k]? = some result ∧
          results'[k]? = some result' ∧
          Recorded (a.rules.map ActiveRule.rule) c rows result.report ∧
          Recorded (a.rules.map ActiveRule.rule) c' rows' result'.report ∧
          List.Forall₂ Reply.Respells (column i rows) (column i rows') := by
  refine ⟨allVisits_iff_of_respells h, fun hvisits hanswers => ?_, ?_⟩
  · have hcases : ∀ x ∈ a.rules, x.rule = b.rule ∨
        (∀ c ∈ cs, ∀ s ∈ c.stages, x.rule.Answers s) ∧
          ∀ c ∈ cs', ∀ s ∈ c.stages, x.rule.Answers s :=
      fun x hx => (hanswers x hx).imp_right List.forall_mem_append.1
    obtain ⟨results, hresults⟩ := exists_analyzeEach_of_builtin b hvisits
      fun x hx => (hcases x hx).imp_right And.left
    obtain ⟨results', hresults'⟩ := exists_analyzeEach_of_builtin b
      ((allVisits_iff_of_respells h).1 hvisits) fun x hx => (hcases x hx).imp_right And.right
    exact ⟨results, results', hresults, hresults'⟩
  · intro results results' hresults hresults' k c c' hc hc'
    obtain ⟨-, -, hruns⟩ := recorded_history hresults
    obtain ⟨-, -, hruns'⟩ := recorded_history hresults'
    obtain ⟨rows, result, hrows, hresult, hrecorded⟩ := hruns k c hc
    obtain ⟨rows', result', hrows', hresult', hrecorded'⟩ := hruns' k c' hc'
    exact ⟨rows, rows', result, result', hrows, hrows', hresult, hresult', hrecorded, hrecorded',
      forall₂_column_of_respells hb hi h hresults hresults' hc hc' hrows hrows'⟩

end Analyzer

/-! ### Sigmas in front of a letter -/

/-- The nodes of a program with three imports and two modules, with two letters behind sigmas. -/
def sigmaNodes (first second : String) : List Node :=
  [⟨.importDecl ⟨"ΟΔΟΣ" ++ first⟩, ⟨1, 1⟩⟩,
   ⟨.importDecl ⟨"οδοσ" ++ second⟩, ⟨2, 1⟩⟩,
   ⟨.importDecl ⟨"ΟΔΟΣ"⟩, ⟨3, 1⟩⟩,
   ⟨.moduleDecl ⟨"οδοσ" ++ first, [], []⟩, ⟨4, 1⟩⟩,
   ⟨.moduleDecl ⟨"ΟΔΟΣ" ++ second, [], []⟩, ⟨5, 1⟩⟩,
   ⟨.program ⟨[0, 1, 2], [3, 4]⟩, ⟨1, 1⟩⟩]

theorem isSome_sigmaTree :
    (Tree.ofNodes "sigma.tw" (sigmaNodes "a" "A") 5).toOption.isSome = true := by
  decide +kernel

/-- The program with these letters. -/
def sigmaTree : Tree :=
  (Tree.ofNodes "sigma.tw" (sigmaNodes "a" "A") 5).toOption.get isSome_sigmaTree

theorem isSome_respelledSigmaTree :
    (Tree.ofNodes "sigma.tw" (sigmaNodes "A" "a") 5).toOption.isSome = true := by
  decide +kernel

/-- The program with these letters in the places of each other. -/
def respelledSigmaTree : Tree :=
  (Tree.ofNodes "sigma.tw" (sigmaNodes "A" "a") 5).toOption.get isSome_respelledSigmaTree

theorem respells_sigmaTree : sigmaTree.Respells respelledSigmaTree where
  root := by decide +kernel
  kinds := by
    have hkinds : sigmaTree.nodes.toList.map Node.kind = (sigmaNodes "a" "A").map Node.kind := by
      decide +kernel
    have hkinds' : respelledSigmaTree.nodes.toList.map Node.kind =
        (sigmaNodes "A" "a").map Node.kind := by decide +kernel
    rw [hkinds, hkinds']
    exact .cons (.importDecl (by decide +kernel)) <| .cons (.importDecl (by decide +kernel)) <|
      .cons (.same _) <| .cons (.moduleDecl (by decide +kernel)) <|
      .cons (.moduleDecl (by decide +kernel)) <| .cons (.same _) .nil

namespace Analyzer

open Analysis

/-- The name of the third import has its sigma at the end, so there is no module of that name. -/
theorem reports_respelled_sigmaTree :
    ∃ rows rows', ((ofBuiltin Builtin.all).history [.ofTrees [sigmaTree]])[0]? = some rows ∧
      ((ofBuiltin Builtin.all).history [.ofTrees [respelledSigmaTree]])[0]? = some rows' ∧
      List.Forall₂ Reply.Respells (column 5 rows) (column 5 rows') ∧
      (column 5 rows).flatMap Reply.reports =
        [⟨.warning, ⟨2, 1⟩, "Duplicate import of module 'οδοσA'."⟩,
          ⟨.error, ⟨3, 1⟩, "Could not resolve import 'ΟΔΟΣ'."⟩] ∧
      (column 5 rows').flatMap Reply.reports =
        [⟨.warning, ⟨2, 1⟩, "Duplicate import of module 'οδοσa'."⟩,
          ⟨.error, ⟨3, 1⟩, "Could not resolve import 'ΟΔΟΣ'."⟩] ∧
      List.Forall₂ Reply.Respells (column 2 rows) (column 2 rows') ∧
      (column 2 rows).flatMap Reply.reports = [⟨.error, ⟨5, 1⟩, "Duplicate module 'ΟΔΟΣA'."⟩] ∧
      (column 2 rows').flatMap Reply.reports = [⟨.error, ⟨5, 1⟩, "Duplicate module 'ΟΔΟΣa'."⟩] := by
  have himport : (ofBuiltin Builtin.all).rules[5]? = some Rule.importResolution.activate := rfl
  have hmodule : (ofBuiltin Builtin.all).rules[2]? = some Rule.duplicateModule.activate := rfl
  have hrespells : List.Forall₂ Compilation.Respells [.ofTrees [sigmaTree]]
      [.ofTrees [respelledSigmaTree]] :=
    .cons (.cons respells_sigmaTree .nil) .nil
  have hvisits : ∀ c ∈ [Compilation.ofTrees [sigmaTree]], AllVisits c.stages := by
    have hkinded : sigmaTree.WellKinded := by decide +kernel
    refine List.forall_mem_singleton.2 (allVisits_of_wellKinded ?_)
    exact List.forall_mem_singleton.2 hkinded
  obtain ⟨-, hends, himports⟩ := reports_respelled (.inl rfl) himport hrespells
  obtain ⟨-, -, hmodules⟩ := reports_respelled (.inr rfl) hmodule hrespells
  obtain ⟨results, results', hresults, hresults'⟩ :=
    hends hvisits fun x hx => Or.inr fun c _ s => answers_of_mem hx
  obtain ⟨rows, rows', -, -, hrows, hrows', -, -, -, -, hcolumn⟩ :=
    himports results results' hresults hresults' 0 _ _ rfl rfl
  obtain ⟨_, _, -, -, hsame, hsame', -, -, -, -, hcolumn'⟩ :=
    hmodules results results' hresults hresults' 0 _ _ rfl rfl
  obtain rfl := Option.some.inj (hrows.symm.trans hsame)
  obtain rfl := Option.some.inj (hrows'.symm.trans hsame')
  obtain rfl : (ofBuiltin Builtin.all).rows (.ofTrees [sigmaTree]) = rows := Option.some.inj hrows
  obtain rfl : (ofBuiltin Builtin.all).rows (.ofTrees [respelledSigmaTree]) = rows' :=
    Option.some.inj hrows'
  refine ⟨_, _, hrows, hrows', hcolumn, ?_, ?_, hcolumn', ?_, ?_⟩ <;> decide +kernel

end Analyzer

end ProgramCheck
