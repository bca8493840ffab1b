import Mathlib
import Stencil.Proofs.Binders
import Stencil.Proofs.Writes
/-!
# Markup is text

Elements stand for the text of their tags around what is inside them. `flatten` spells them out and joins
the texts that come to stand next to each other. A template and its flattened form compile to the same
program (`compile_flatten`), and the blocks of a program have their writes joined (`compile_tidy`). So
templates that flatten alike compile alike, however their text is cut into segments.
-/

namespace Stencil

/-! ## Flattened templates -/

/-- Puts text in front of segments whose texts are merged. -/
def textBefore (s : String) : List Segment → List Segment
  | .text t :: rest => .text (s ++ t) :: rest
  | rest => if s = "" then rest else .text s :: rest

/-- Drops empty texts and merges those that stand next to each other. -/
def mergeTexts : List Segment → List Segment
  | [] => []
  | .text s :: rest => textBefore s (mergeTexts rest)
  | segment :: rest => segment :: mergeTexts rest

mutual

/-- The statement with its bodies flattened. -/
def Statement.flatten : Statement → Statement
  | .assign target value => .assign target value
  | .when condition body => .when condition (mergeTexts (Segment.piecesAll body))
  | .choose condition body otherwise =>
    .choose condition (mergeTexts (Segment.piecesAll body)) (mergeTexts (Segment.piecesAll otherwise))
  | .loop initial condition increment body =>
    .loop initial.flatten condition increment.flattenIncrement (mergeTexts (Segment.piecesAll body))
  | .each x collection body => .each x collection (mergeTexts (Segment.piecesAll body))
  | .switch subject body => .switch subject (mergeTexts (Segment.piecesAll body))
  | .label name guard => .label name guard

/-- An increment stays one segment. -/
def Segment.flattenIncrement : Segment → Segment
  | .statement s => .statement s.flatten
  | segment => segment

/-- What a segment consists of when elements are spelled out. -/
def Segment.pieces : Segment → List Segment
  | .text s => [.text s]
  | .expr e => [.expr e]
  | .statement s => [.statement s.flatten]
  | .block body => [.block (mergeTexts (Segment.piecesAll body))]
  | .element name attributes space selfClosing children =>
    .text ("<" ++ name) :: Attribute.piecesAll attributes ++ [.text space] ++
      if selfClosing then [.text "/>"]
      else .text ">" :: Segment.piecesAll children ++ [.text ("</" ++ name ++ ">")]

def Segment.piecesAll : List Segment → List Segment
  | [] => []
  | s :: rest => s.pieces ++ Segment.piecesAll rest

def Attribute.pieces : Attribute → List Segment
  | .flag name => [.text (" " ++ name)]
  | .valued name value => .text (" " ++ name ++ "=\"") :: Segment.piecesAll value ++ [.text "\""]

def Attribute.piecesAll : List Attribute → List Segment
  | [] => []
  | a :: rest => a.pieces ++ Attribute.piecesAll rest

end

/-- The template with its markup spelled out and its texts merged, in nested bodies too. -/
def flatten (l : List Segment) : List Segment := mergeTexts (Segment.piecesAll l)

/-! ## Flattening and compiling -/

/-- What is compiled in the place of a part; a segment becomes several. -/
def Part.flatten : Part → Part
  | .statement fresh s => .statement fresh s.flatten
  | .increment s => .increment s.flattenIncrement
  | .body l => .body (Stencil.flatten l)
  | .segment s => .segments s.pieces
  | .segments l => .segments (Segment.piecesAll l)
  | .attribute a => .segments a.pieces
  | .attributes l => .segments (Attribute.piecesAll l)

section Flatten
variable {scope scope' : Scope} {l : List Segment} {steps : List Step}

theorem Compiled.single {s : Segment} (h : Compiled scope (.segment s) steps scope') :
    Compiled scope (.segments [s]) steps scope' := by
  simpa using Compiled.cons h .nil

theorem textBefore_cases (s : String) (l : List Segment) :
    (∃ t rest, l = .text t :: rest ∧ textBefore s l = .text (s ++ t) :: rest) ∨
      textBefore s l = if s = "" then l else .text s :: l := by
  cases l with
  | nil => exact .inr rfl
  | cons segment rest =>
    cases segment with
    | text t => exact .inl ⟨t, rest, rfl, rfl⟩
    | _ => exact .inr rfl

theorem Compiled.textBefore (h : Compiled scope (.segments l) steps scope') (s : String) :
    ∃ steps', Compiled scope (.segments (textBefore s l)) steps' scope' ∧
      joinWrites steps' = writeBefore s (joinWrites steps) := by
  rcases textBefore_cases s l with ⟨t, rest, rfl, heq⟩ | heq
  · rw [heq]
    cases h with
    | cons ht hr =>
      cases ht
      refine ⟨_, .cons .text hr, ?_⟩
      simp only [List.singleton_append, joinWrites_cons, Step.before, writeBefore_writeBefore]
  · rw [heq]
    by_cases hs : s = ""
    · rw [if_pos hs, hs]
      exact ⟨steps, h, (writeBefore_empty _).symm⟩
    · rw [if_neg hs]
      refine ⟨_, .cons .text h, ?_⟩
      simp only [List.singleton_append, joinWrites_cons, Step.before]

/-- Merged texts are written as one, as their writes would have been. -/
theorem Compiled.mergeTexts (h : Compiled scope (.segments l) steps scope') :
    ∃ steps', Compiled scope (.segments (mergeTexts l)) steps' scope' ∧ joinWrites steps' = joinWrites steps := by
  induction l generalizing scope steps with
  | nil => exact ⟨steps, h, rfl⟩
  | cons segment rest ih =>
    cases h with
    | cons hs hr =>
      obtain ⟨more, hm, hj⟩ := ih hr
      cases segment with
      | text s =>
        cases hs
        obtain ⟨steps', ht, hj'⟩ := hm.textBefore s
        refine ⟨steps', ht, ?_⟩
        rw [hj', hj, List.singleton_append, joinWrites_cons, Step.before]
      | _ =>
        refine ⟨_, .cons hs hm, ?_⟩
        rw [joinWrites_append, joinWrites_append, hj]

/-- Flattened, a part compiles to the steps that it compiles to as it is. -/
theorem Compiled.flatten {part : Part} (h : Compiled scope part steps scope') :
    Compiled scope part.flatten steps scope' := by
  induction h with
  | store he hp => exact .store he hp
  | declare he hx hf => exact .declare he hx hf
  | assign he hx hy => exact .assign he hx hy
  | when hc _ ih => exact .when hc ih
  | choose hc _ _ ihb iho => exact .choose hc ihb iho
  | loop _ hc _ _ ihi ihu ihb => exact .loop ihi hc ihu ihb
  | each hx hc _ ih => exact .each hx hc ih
  | switch he _ ih => exact .switch he ih
  | label hn => exact .label hn
  | guarded hn he => exact .guarded hn he
  | evaluate ht => exact .evaluate ht
  | update _ ih => exact .update ih
  | body _ ih =>
    obtain ⟨steps', hm, hj⟩ := ih.mergeTexts
    rw [← hj]
    exact .body hm
  | text => exact .single .text
  | emit ht => exact .single (.emit ht)
  | statement _ ih => exact .single (.statement ih)
  | block _ ih => exact .single (.block ih)
  | closed _ _ _ ih =>
    exact ((Compiled.cons .text ih).append (.single .text)).append (.single .text)
  | @element _ _ _ name attributes space children inTag inside _ _ _ _ iha ihc =>
    have inner : Compiled _ (.segments (.text ">" :: Segment.piecesAll children ++ [.text ("</" ++ name ++ ">")]))
        (.write ">" :: inside ++ [.write ("</" ++ name ++ ">")]) _ :=
      (Compiled.cons .text ihc).append (.single .text)
    rw [List.append_assoc _ (_ :: inside)]
    exact ((Compiled.cons .text iha).append (.single .text)).append inner
  | nil => exact .nil
  | cons _ _ ihs ihr => exact ihs.append ihr
  | flag _ => exact .single .text
  | valued _ _ ih => exact (Compiled.cons .text ih).append (.single .text)
  | noAttributes => exact .nil
  | moreAttributes _ _ ihs ihr => exact ihs.append ihr

end Flatten

/-- A template compiles to the program of its flattened form. -/
theorem compile_flatten {l : List Segment} {program : Program} (h : (compile l).result = .ok program) :
    (compile (flatten l)).result = .ok program := by
  obtain ⟨steps, scope, hs, rfl⟩ := compile_ok_iff.1 h
  obtain ⟨steps', hm, hj⟩ := hs.flatten.mergeTexts
  exact compile_ok_iff.2 ⟨steps', scope, hm, by rw [hj]⟩

/-! ## Blocks with their writes joined -/

mutual

def Step.Tidy : Step → Prop
  | .block body | .when _ body | .switch _ body | .each _ _ body => body.Tidy
  | .choose _ body otherwise => body.Tidy ∧ otherwise.Tidy
  | .loop _ initial _ update body => initial.Tidy ∧ update.Tidy ∧ body.Tidy
  | _ => True

/-- The block and those inside it have no empty write and no two writes in a row. -/
def Block.Tidy : Block → Prop
  | .mk _ steps => Joined steps ∧ Step.TidyAll steps

def Step.TidyAll : List Step → Prop
  | [] => True
  | step :: rest => step.Tidy ∧ Step.TidyAll rest

end

@[simp] theorem tidyAll_append (a b : List Step) :
    Step.TidyAll (a ++ b) ↔ Step.TidyAll a ∧ Step.TidyAll b := by
  induction a with
  | nil => simp [Step.TidyAll]
  | cons step a ih => simp [Step.TidyAll, ih, and_assoc]

theorem tidyAll_joinWrites (steps : List Step) : Step.TidyAll (joinWrites steps) = Step.TidyAll steps := by
  refine joinWrites_eq Step.TidyAll (fun s rest => ?_) (fun step a b h => ?_) steps
  · simp [Step.TidyAll, Step.Tidy]
  · simp [Step.TidyAll, h]

theorem Compiled.tidy {scope scope' : Scope} {part : Part} {steps : List Step}
    (h : Compiled scope part steps scope') : Step.TidyAll steps := by
  induction h with
  | body _ ih => simpa [Step.TidyAll, Step.Tidy, Block.Tidy, tidyAll_joinWrites, joinWrites_joined] using ih
  | _ => simp_all [Step.TidyAll, Step.Tidy]

theorem compile_tidy {l : List Segment} {program : Program} (h : (compile l).result = .ok program) :
    program.body.Tidy := by
  obtain ⟨steps, scope, hs, rfl⟩ := compile_ok_iff.1 h
  exact ⟨joinWrites_joined steps, tidyAll_joinWrites steps ▸ hs.tidy⟩

/--
A template compiles to the program of its flattened form, so that templates with the same flattened form
compile to the same program; and no block of the program has an empty write or two writes in a row.
-/
theorem compile_canonical {a : List Segment} {p : Program} (ha : (compile a).result = .ok p) :
    (∀ b q, (compile b).result = .ok q → flatten a = flatten b → p = q) ∧
      (compile (flatten a)).result = .ok p ∧ p.body.Tidy := by
  refine ⟨fun b q hb h => ?_, compile_flatten ha, compile_tidy ha⟩
  have hp := compile_flatten ha
  rw [h, compile_flatten hb] at hp
  exact (Except.ok.inj hp).symm

/-- A link in a list, as elements. -/
def linked : List Segment := [
  .statement (.each "x" (.name "items") [
    .element "a" [.flag "new", .valued "href" [.text "/", .expr (.name "x")]] " " false [
      .statement (.assign (.name "y") (.name "x")), .element "br" [] "" true [.expr (.name "z")], .expr (.name "y")]])]

/-- The same link, cut into other pieces. -/
def linkedText : List Segment := [
  .text "",
  .statement (.each "x" (.name "items") [
    .text "<a ", .text "new href=\"", .text "/", .expr (.name "x"), .text "\" >",
    .statement (.assign (.name "y") (.name "x")), .text "<br", .text "/>", .expr (.name "y"), .text "</a>"])]

theorem compile_canonical_linked : ∃ p q,
    (compile linked).result = .ok p ∧ (compile linkedText).result = .ok q ∧ flatten linked = flatten linkedText ∧
      p = q ∧ (compile (flatten linked)).result = .ok p ∧ p.body.Tidy := by
  have hp : (compile linked).result = .ok ⟨.mk [] [.each ⟨0, "x"⟩ (.model "items") (.mk [1] [
      .write "<a new href=\"/", .emit (.variable ⟨0, "x"⟩), .write "\" >",
      .declare ⟨1, "y"⟩ (.variable ⟨0, "x"⟩), .write "<br/>", .emit (.variable ⟨1, "y"⟩), .write "</a>"])], 2⟩ := rfl
  have hq : ∃ q, (compile linkedText).result = .ok q := ⟨_, rfl⟩
  have hflat : flatten linked = flatten linkedText := rfl
  obtain ⟨q, hq⟩ := hq
  exact ⟨_, q, hp, hq, hflat, (compile_canonical hp).1 _ q hq hflat, (compile_canonical hp).2⟩

end Stencil
