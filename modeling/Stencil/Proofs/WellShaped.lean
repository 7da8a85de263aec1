import Stencil.Proofs.RoundTrip
import Stencil.Proofs.SignedLiterals
import Stencil.Evaluation.Walk

/-!
# The shape of trees that were read without problems

While something is wrong with a text, reading puts up with anything: empty paths, groups of many
items, parameters that are no names. Main statement: `parse_wellShaped`, nothing of this is in a
tree that was read without problems. What evaluation may rely on is stated for one node at a time
(`WellShaped`), and holds of what is written by the rules of the language (`Written.shaped`).
-/

namespace Stencil

open Tokenizer (leading continuation)

/-! ## The shape of a node -/

namespace Expr

/-- Whether the expression is a call of a formatter. -/
def isCall : Expr → Bool
  | call _ _ _ _ _ => true
  | _ => false

/-- Whether links can follow the expression. -/
def opensChain : Expr → Bool
  | string _ _ _ | list _ .bracket _ => true
  | e => e.isCall

/-- Whether the expression is a name alone: a path of one part that looks a member up. -/
def isName (e : Expr) : Bool :=
  Parser.isParameter e && e.soleKey?.isSome

/-- The parameters of a lambda: those in brackets, or else a single one. -/
def parameterItems : Expr → List Expr
  | list _ .arguments items => items
  | e => [e]

end Expr

/-- Whether the argument has no name or one that is made of word characters. -/
def Argument.NameFits (a : Argument) : Prop :=
  ∀ name, a.name = some name → name ≠ "" ∧ name.toList.all Text.isWord = true

/-- What a node looks like that is used in the given role. -/
def WellShaped (role : Role) : Expr → Prop
  | .path o parts =>
    parts ≠ [] ∧ (Parser.isParameter (.path o parts) = true → (Expr.path o parts).isName = true)
  | .call _ _ _ _ args => ∀ a ∈ args, a.NameFits
  | .string _ _ _ => True
  | .number _ literal value => Numeral.ofLiteral? literal = some value
  | .list _ .chain [] => False
  | .list _ .chain (first :: links) =>
    links ≠ [] ∧ first.opensChain = true ∧ links.all Expr.isPath = true ∧
      links.dropLast.all Expr.isCall = true
  | .list _ .bracket items => items.length = 1
  | .list _ .arguments _ => role = .parameterList
  | .unary _ _ op _ => op = .not
  | .binary _ _ op _ _ => op ≠ .not
  | .lambda _ parameters _ =>
    parameters.parameterItems.all Expr.isName = true ∧
      parameters.parameterNames.length = parameters.parameterItems.length

/-! ## Origins and sites do not matter -/

theorem Expr.bareAll_eq_map (es : List Expr) : Expr.bareAll es = es.map Expr.bare := by
  induction es with
  | nil => rfl
  | cons e es ih => rw [Expr.bareAll, ih, List.map_cons]

theorem Argument.nameFits_bareAll (args : List Argument) :
    (∀ a ∈ Argument.bareAll args, a.NameFits) ↔ ∀ a ∈ args, a.NameFits := by
  induction args with
  | nil => exact Iff.rfl
  | cons a rest ih =>
    obtain ⟨name, sp, e⟩ := a
    rw [Argument.bareAll, List.forall_mem_cons, List.forall_mem_cons, ih]
    exact Iff.rfl

namespace Expr

@[simp] theorem isCall_bare (e : Expr) : e.bare.isCall = e.isCall := by
  cases e <;> rfl

@[simp] theorem isPath_bare (e : Expr) : e.bare.isPath = e.isPath := by
  cases e <;> rfl

@[simp] theorem opensChain_bare (e : Expr) : e.bare.opensChain = e.opensChain := by
  cases e with
  | list o kind items => cases kind <;> rfl
  | _ => rfl

@[simp] theorem soleKey?_bare (e : Expr) : e.bare.soleKey? = e.soleKey? := by
  cases e with
  | path o parts => rcases parts with _ | ⟨p, _ | ⟨q, rest⟩⟩ <;> rfl
  | _ => rfl

@[simp] theorem isName_bare (e : Expr) : e.bare.isName = e.isName := by
  rw [isName, isName, soleKey?_bare, Parser.isParameter_bare]

@[simp] theorem parameterItems_path (o : Origin) (parts : Path) :
    (path o parts).parameterItems = [path o parts] := rfl

theorem parameterItems_bare (e : Expr) : e.bare.parameterItems = e.parameterItems.map bare := by
  cases e with
  | list o kind items => cases kind <;> simp [bare, parameterItems, bareAll_eq_map]
  | _ => rfl

theorem parameterNames_bare (e : Expr) : e.bare.parameterNames = e.parameterNames := by
  cases e with
  | list o kind items =>
    simp only [bare, parameterNames, bareAll_eq_map, List.filterMap_map, Function.comp_def,
      soleKey?_bare]
  | path o parts => exact congrArg Option.toList (soleKey?_bare (.path o parts))
  | _ => rfl

end Expr

/-- The shape of a node is the shape of its bare tree. -/
theorem wellShaped_bare (role : Role) (e : Expr) : WellShaped role e.bare ↔ WellShaped role e := by
  cases e with
  | path o parts =>
    rw [WellShaped, ← Parser.isParameter_bare (.path o parts), ← Expr.isName_bare (.path o parts)]
    exact Iff.rfl
  | call o n parts name args => exact Argument.nameFits_bareAll args
  | list o kind items =>
    cases kind with
    | chain =>
      cases items with
      | nil => simp [Expr.bare, Expr.bareAll, WellShaped]
      | cons first links =>
        simp [Expr.bare, Expr.bareAll_eq_map, WellShaped, ← List.map_dropLast, Function.comp_def]
    | bracket => simp [Expr.bare, Expr.bareAll_eq_map, WellShaped]
    | arguments => exact Iff.rfl
  | lambda o parameters body =>
    simp [Expr.bare, WellShaped, Expr.parameterItems_bare, Expr.parameterNames_bare,
      Function.comp_def]
  | _ => exact Iff.rfl

/-! ## What is written has this shape -/

/-- What the rules of the language make of a phrase. -/
def Phrase.Shaped : Phrase → Prop
  | .operand e | .tree e => e.everyNode WellShaped .free
  | .links es =>
    es.all Expr.isPath = true ∧ es.dropLast.all Expr.isCall = true ∧
      Expr.everyItem WellShaped .laterLink es
  | .arguments _ args | .items _ args =>
    (∀ a ∈ args, a.NameFits) ∧ Argument.everyNode WellShaped args

/-- Names declare as many parameters as there are. -/
theorem Expr.length_parameterNames {e : Expr} (h : e.parameterItems.all isName = true) :
    e.parameterNames.length = e.parameterItems.length := by
  have hkeys : ∀ es : List Expr, es.all isName = true →
      (es.filterMap soleKey?).length = es.length := by
    intro es hes
    induction es with
    | nil => rfl
    | cons e es ih =>
      rw [List.all_cons, Bool.and_eq_true] at hes
      obtain ⟨key, hkey⟩ := Option.isSome_iff_exists.mp (Bool.and_eq_true_iff.mp hes.1).2
      rw [List.filterMap_cons_some hkey, List.length_cons, ih hes.2, List.length_cons]
  cases e with
  | list o kind items =>
    cases kind with
    | arguments => exact hkeys items h
    | chain | bracket => cases h
  | path o parts =>
    rw [parameterItems_path, List.all_cons, Bool.and_eq_true] at h
    obtain ⟨key, hkey⟩ := Option.isSome_iff_exists.mp (Bool.and_eq_true_iff.mp h.1).2
    show (Expr.path o parts).soleKey?.toList.length = 1
    rw [hkey]
    rfl
  | _ => cases h

/-- A node that can be a parameter is a name. -/
theorem WellShaped.isName {role : Role} {e : Expr} (h : WellShaped role e)
    (hparameter : Parser.isParameter e = true) : e.isName = true := by
  cases e with
  | path o parts => exact h.2 hparameter
  | _ => cases hparameter

/-- A path that was read from something has a text of its own, so it has parts, and a key if it is a
name. -/
theorem wellShaped_path {s t : Tokenizer} {cs : List Char} {parts : Path} (hs : s.IsFresh)
    (hfeed : s.feed cs = .ok t) (hpath : t.path = .ok parts) (hne : cs ≠ []) (o : Origin)
    (role : Role) : WellShaped role (.path o parts) := by
  have hrender := hs.display_ne_nil hfeed (Tokenizer.feed_render_of_path hs hfeed hpath) hne
  refine ⟨fun hnil => hrender (by rw [hnil]; rfl), fun hparameter => ?_⟩
  obtain ⟨_ | key, rfl⟩ := Parser.exists_of_isParameter hparameter
  · exact absurd rfl hrender
  · rfl

theorem WrittenName.nameFits {kind : BracketKind} {name : Option String} {ns : List Char}
    (h : WrittenName kind name ns) (sp : Span) (e : Expr) : Argument.NameFits ⟨name, sp, e⟩ := by
  rintro name' (hname : name = some name')
  cases h with
  | none => cases hname
  | @name cs _ hne hword =>
    obtain rfl := Option.some.inj hname
    rw [String.toList_ofList]
    exact ⟨by simpa using hne, hword⟩

theorem everyNode_chained {o : Origin} {first : Expr} {es : List Expr}
    (hfirst : first.everyNode WellShaped .free) (hopens : first.opensChain = true)
    (hlinks : (Phrase.links es).Shaped) : (chained o first es).everyNode WellShaped .free := by
  cases es with
  | nil => exact hfirst
  | cons e es =>
    obtain ⟨hpaths, hcalls, hnodes⟩ := hlinks
    exact ⟨⟨List.cons_ne_nil e es, hopens, hpaths, hcalls⟩, hfirst, hnodes⟩

theorem Written.shaped {inside : Bool} {ph : Phrase} {cs tail : List Char}
    (h : Written inside ph cs tail) : ph.Shaped := by
  induction h with
  | @path _ _ _ _ parts o hfeed hpath hne =>
    refine everyNode_pathExpr.mpr ?_
    have hpath := wellShaped_path (.inl rfl) hfeed hpath hne o .free
    unfold pathExpr
    split
    · split
      · next value hvalue => exact hvalue
      · exact hpath
    · exact hpath
  | @negative _ _ _ _ literal value o' hdigit h ih =>
    obtain ⟨value', hvalue⟩ := Numeral.exists_ofLiteral?_minus (h.head?_number rfl hdigit) ih
    show Numeral.ofLiteral? ("-" ++ literal) =
      some ((Numeral.ofLiteral? ("-" ++ literal)).getD value)
    rw [hvalue]
    rfl
  | not o n _ _ ih => exact ⟨rfl, ih⟩
  | string o o' _ _ _ ih => exact everyNode_chained trivial rfl ih
  | call o o' n _ _ _ _ _ ihargs ihlinks => exact everyNode_chained ihargs rfl ihlinks
  | group o o' _ _ _ ihargs ihlinks =>
    exact everyNode_chained ⟨rfl, Argument.everyItem_exprs ihargs.2⟩ rfl ihlinks
  | @lambda _ _ _ _ _ _ _ parts _ o o' hfeed hpath hne hparameter _ _ _ _ ih =>
    have hpath := wellShaped_path (.inl rfl) hfeed hpath hne o' .free
    have hnames : (Expr.path o' parts).parameterItems.all Expr.isName = true := by
      rw [Expr.parameterItems_path, List.all_cons, hpath.isName hparameter]
      rfl
    exact ⟨⟨hnames, Expr.length_parameterNames hnames⟩, hpath, ih⟩
  | @lambdaList _ _ _ _ _ _ args _ o o' _ hparameters _ _ _ _ ihargs ih =>
    have hitems := Argument.everyItem_exprs ihargs.2
    have hnames : (args.map Argument.expr).all Expr.isName = true := by
      rw [List.all_map]
      refine List.all_eq_true.mpr fun a ha => ?_
      exact (everyNode_self (everyNode_of_mem_arguments ihargs.2 a ha)).isName
        (List.all_eq_true.mp hparameters a ha)
    have hlength := Expr.length_parameterNames (e := .list o' .arguments _) hnames
    exact ⟨⟨hnames, hlength⟩, ⟨rfl, hitems⟩, ih⟩
  | noLinks => exact ⟨rfl, rfl, trivial⟩
  | @link _ _ _ _ _ _ _ _ _ es o n _ _ _ _ ihargs ihlinks =>
    obtain ⟨hpaths, hcalls, hnodes⟩ := ihlinks
    refine ⟨hpaths, ?_, ihargs, hnodes⟩
    cases es with
    | nil => rfl
    | cons e es => exact hcalls
  | lastLink o hfeed hpath hne =>
    exact ⟨rfl, rfl, wellShaped_path (.inr rfl) hfeed hpath hne o _, trivial⟩
  | noArguments => exact ⟨fun _ ha => absurd ha List.not_mem_nil, trivial⟩
  | someArguments _ ih => exact ih
  | lastItem sp _ hname _ _ _ ih =>
    refine ⟨List.forall_mem_cons.mpr ⟨hname.nameFits _ _, ?_⟩, ih, trivial⟩
    exact fun _ ha => absurd ha List.not_mem_nil
  | item sp _ hname _ _ _ _ ih ihrest =>
    exact ⟨List.forall_mem_cons.mpr ⟨hname.nameFits _ _, ihrest.1⟩, ih, ihrest.2⟩
  | operand _ ih => exact ih
  | binary o n _ _ hop _ _ _ _ ihl ihr =>
    have hunary := (Operator.prefix_of_atStart? hop).1
    refine ⟨?_, ihl, ihr⟩
    rintro rfl
    cases hunary

/-! ## Trees that were read -/

/-- What holds of all nodes, and does not depend on origins and sites, holds of them with the texts
and sites that are added in the end. -/
theorem everyNode_withSources_numberSites {p : Role → Expr → Prop}
    (hbare : ∀ {role : Role} {e e' : Expr}, e'.bare = e.bare → p role e → p role e')
    (text : List Char) (base : Nat) {e : Expr} (h : e.everyNode p .free) :
    ((e.withSources text base).numberSites 0).1.everyNode p .free := by
  have hsources : (e.withSources text base).everyNode p .free :=
    Expr.everyNode_mapOrigin (fun _ _ he => hbare (Expr.bare_mapOrigin _ _) he) h
  exact Expr.everyNode_numberSites (fun _ _ _ he => hbare (Expr.bare_numberSites _ _) he) 0 hsources

/-- What holds of the nodes of all that is written, and does not depend on origins and sites, holds
of the nodes of what was read without problems. -/
theorem everyNode_of_parse {p : Role → Expr → Prop}
    (hbare : ∀ {role : Role} {e e' : Expr}, e'.bare = e.bare → p role e → p role e')
    (hwritten : ∀ {e : Expr} {cs tail : List Char},
      Written false (.tree e) cs tail → e.everyNode p .free)
    {text : List Char} {place : Placement} {t : Expr} (h : parseAt text place = ⟨some t, []⟩) :
    t.everyNode p .free := by
  obtain ⟨e, ws, cs, bl, c', rfl, hwhole⟩ := exists_written h
  exact everyNode_withSources_numberSites (p := p) hbare text place.offset (hwritten hwhole.written)

theorem WellShaped.of_bare {role : Role} {e e' : Expr} (h : e'.bare = e.bare)
    (he : WellShaped role e) : WellShaped role e' := by
  rwa [← wellShaped_bare, h, wellShaped_bare]

/-- All nodes of a tree that was read without problems are well-shaped, wherever the text stands. -/
theorem parse_wellShaped {text : List Char} {place : Placement} {t : Expr}
    (h : parseAt text place = ⟨some t, []⟩) : t.everyNode WellShaped .free :=
  everyNode_of_parse .of_bare (fun hwritten => hwritten.shaped) h

theorem parse_wellShaped_chain :
    ∃ t, parseAt "(x).F([n](a, b) => !a < -7).G('s') ?? y".toList
      (.within "(x).F([n](a, b) => !a < -7).G('s') ?? y".toList 0) = ⟨some t, []⟩ ∧
      t.everyNode WellShaped .free := by
  obtain ⟨t, hparse, -⟩ := Parsed.exists_of_isValid
    (p := parse "(x).F([n](a, b) => !a < -7).G('s') ?? y") (by decide +kernel)
  exact ⟨t, hparse, parse_wellShaped hparse⟩

end Stencil
