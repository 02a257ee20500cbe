import Mathlib.Data.List.TakeWhile
import OpenDaemon.ByteText
import OpenDaemon.ServiceSteps

/-!
# Command templates

An argument of a provider's manifest is a text with references `{{ name }}`. They
are replaced from left to right; the scan goes on behind each reference, so what was
inserted is not read again.
-/

namespace OpenDaemon

open ByteText

structure TemplateValues where
  prompt : Option String
  model : Option String
  workspace : Option String
  taskId : Option String
  agentId : Option String
  directoryId : Option String
  deriving DecidableEq, Repr

/-- `panic` stands for the abort of the call by a slice inside a character. -/
inductive RenderError
  | adapter (error : RuntimeAdapterError)
  | panic
  deriving DecidableEq, Repr

def renderError (message : String) : RuntimeAdapterError := ⟨"command_render_failed", message⟩

def resolveVariable (name : String) (values : TemplateValues) :
    Except RuntimeAdapterError String := do
  let value ← match name with
    | "prompt" => pure values.prompt
    | "model" => pure values.model
    | "workspace" => pure values.workspace
    | "task_id" => pure values.taskId
    | "agent_id" => pure values.agentId
    | "directory_id" => pure values.directoryId
    | _ => throw (renderError ("unknown template variable: " ++ name))
  match value with
  | some value => pure value
  | none => throw (renderError ("missing template variable: " ++ name))

def trim (text : List Char) : List Char :=
  ((text.dropWhile isWhiteSpace).reverse.dropWhile isWhiteSpace).reverse

namespace CommandTemplate

def opening : List Char := ['{', '{']

def closing : List Char := ['}', '}']

def slice (text : Option (List Char)) : Except RenderError (List Char) :=
  text.elim (.error .panic) .ok

/-- The body of the `while` loop of `render`: the text it pushes and the remaining text, or
nothing when the loop ends. Offsets are in bytes, as `str::find` gives them. -/
def loopBody (values : TemplateValues) (remaining : List Char) :
    Except RenderError (Option (List Char × List Char)) :=
  match find opening remaining with
  | none => pure none
  | some start => do
    let literal ← slice (sliceTo start remaining)
    let afterStart ← slice (sliceFrom (start + 2) remaining)
    match find closing afterStart with
    | none => throw (.adapter (renderError "unterminated template variable"))
    | some stop =>
      let inner ← slice (sliceTo stop afterStart)
      let value ← (resolveVariable (String.ofList (trim inner)) values).mapError .adapter
      let rest ← slice (sliceFrom (stop + 2) afterStart)
      return some (literal ++ value.toList, rest)

section Body

variable {values : TemplateValues} {literal inner rest afterStart remaining : List Char}

theorem byteLength_opening : byteLength opening = 2 := by decide

theorem byteLength_closing : byteLength closing = 2 := by decide

theorem loopBody_literal (h : ¬ opening <:+: remaining) :
    loopBody values remaining = .ok none := by
  rw [loopBody, find_of_not_isInfix h]
  rfl

theorem loopBody_opened (hopen : FirstAt opening literal afterStart) :
    find opening (literal ++ opening ++ afterStart) = some (byteLength literal) ∧
      sliceTo (byteLength literal) (literal ++ opening ++ afterStart) = some literal ∧
      sliceFrom (byteLength literal + 2) (literal ++ opening ++ afterStart) = some afterStart := by
  have hafter := sliceFrom_behind opening literal afterStart
  rw [byteLength_opening] at hafter
  exact ⟨hopen.find, sliceTo_before opening literal afterStart, hafter⟩

theorem loopBody_closed (hclose : FirstAt closing inner rest) :
    find closing (inner ++ closing ++ rest) = some (byteLength inner) ∧
      sliceTo (byteLength inner) (inner ++ closing ++ rest) = some inner ∧
      sliceFrom (byteLength inner + 2) (inner ++ closing ++ rest) = some rest := by
  have hafter := sliceFrom_behind closing inner rest
  rw [byteLength_closing] at hafter
  exact ⟨hclose.find, sliceTo_before closing inner rest, hafter⟩

theorem loopBody_unterminated (hopen : FirstAt opening literal afterStart)
    (hclose : ¬ closing <:+: afterStart) :
    loopBody values (literal ++ opening ++ afterStart) =
      .error (.adapter (renderError "unterminated template variable")) := by
  obtain ⟨hfind, hliteral, hafter⟩ := loopBody_opened hopen
  rw [loopBody, hfind]
  simp only [hliteral, hafter, slice, Option.elim_some, Call.ok_bind,
    find_of_not_isInfix hclose]
  rfl

theorem loopBody_reference (values : TemplateValues)
    (hopen : FirstAt opening literal (inner ++ closing ++ rest))
    (hclose : FirstAt closing inner rest) :
    loopBody values (literal ++ opening ++ (inner ++ closing ++ rest)) =
      ((resolveVariable (String.ofList (trim inner)) values).mapError .adapter).map
        fun value => some (literal ++ value.toList, rest) := by
  obtain ⟨hfind, hliteral, hafter⟩ := loopBody_opened hopen
  obtain ⟨hfind', hinner, hrest⟩ := loopBody_closed hclose
  rw [loopBody, hfind]
  simp only [hliteral, hafter, slice, Option.elim_some, Call.ok_bind, hfind', hinner, hrest]
  cases resolveVariable (String.ofList (trim inner)) values <;> rfl

theorem scan_cases (remaining : List Char) :
    ¬ opening <:+: remaining ∨
    (∃ literal afterStart, remaining = literal ++ opening ++ afterStart ∧
      FirstAt opening literal afterStart ∧ ¬ closing <:+: afterStart) ∨
    (∃ literal inner rest, remaining = literal ++ opening ++ (inner ++ closing ++ rest) ∧
      FirstAt opening literal (inner ++ closing ++ rest) ∧ FirstAt closing inner rest) := by
  by_cases hopen : opening <:+: remaining
  · obtain ⟨literal, afterStart, rfl, hfirst⟩ := exists_firstAt hopen
    by_cases hclose : closing <:+: afterStart
    · obtain ⟨inner, rest, rfl, hfirst'⟩ := exists_firstAt hclose
      exact .inr (.inr ⟨literal, inner, rest, rfl, hfirst, hfirst'⟩)
    · exact .inr (.inl ⟨literal, afterStart, rfl, hfirst, hclose⟩)
  · exact .inl hopen

theorem length_of_loopBody {pushed : List Char}
    (h : loopBody values remaining = .ok (some (pushed, rest))) :
    rest.length < remaining.length := by
  rcases scan_cases remaining with hnone | ⟨literal, afterStart, rfl, hopen, hclose⟩ |
    ⟨literal, inner, rest', rfl, hopen, hclose⟩
  · simp [loopBody_literal hnone] at h
  · rw [loopBody_unterminated hopen hclose] at h
    simp at h
  · rw [loopBody_reference values hopen hclose] at h
    cases hvalue : resolveVariable (String.ofList (trim inner)) values with
    | error error => simp [hvalue, Except.mapError, Except.map] at h
    | ok value =>
      simp only [hvalue, Except.mapError, Except.map, Except.ok.injEq, Option.some.injEq,
        Prod.mk.injEq] at h
      simp only [← h.2, List.length_append, opening, closing, List.length_cons]
      omega

end Body

def renderLoop (values : TemplateValues) (rendered remaining : List Char) :
    Except RenderError (List Char) :=
  match _ : loopBody values remaining with
  | .error error => .error error
  | .ok none => .ok (rendered ++ remaining)
  | .ok (some (pushed, rest)) => renderLoop values (rendered ++ pushed) rest
termination_by remaining.length
decreasing_by exact length_of_loopBody ‹_›

def render (input : String) (values : TemplateValues) : Except RenderError String :=
  (renderLoop values [] input.toList).map String.ofList

def renderArgs (args : List String) (values : TemplateValues) :
    Except RenderError (List String) :=
  args.mapM fun arg => render arg values

section Loop

variable {values : TemplateValues} {rendered literal inner rest afterStart remaining : List Char}

theorem renderLoop_literal (h : ¬ opening <:+: remaining) :
    renderLoop values rendered remaining = .ok (rendered ++ remaining) := by
  rw [renderLoop]
  split <;> simp_all [loopBody_literal h]

theorem renderLoop_error {error : RenderError} (h : loopBody values remaining = .error error) :
    renderLoop values rendered remaining = .error error := by
  rw [renderLoop]
  split <;> simp_all

theorem renderLoop_pushed {pushed : List Char}
    (h : loopBody values remaining = .ok (some (pushed, rest))) :
    renderLoop values rendered remaining = renderLoop values (rendered ++ pushed) rest := by
  rw [renderLoop]
  split <;> simp_all

end Loop

end CommandTemplate

/-! ### Names and their values -/

def TemplateValues.known (values : TemplateValues) (name : String) : Option String :=
  ([("prompt", values.prompt), ("model", values.model), ("workspace", values.workspace),
    ("task_id", values.taskId), ("agent_id", values.agentId),
    ("directory_id", values.directoryId)].lookup name).join

theorem resolveVariable_known {values : TemplateValues} {name value : String}
    (h : values.known name = some value) : resolveVariable name values = .ok value := by
  unfold resolveVariable
  split
  all_goals simp_all [TemplateValues.known, List.lookup_cons, beq_false_of_ne]
  all_goals rfl

theorem resolveVariable_unknown {values : TemplateValues} {name : String}
    (h : values.known name = none) :
    ∃ message, resolveVariable name values = .error (renderError message) := by
  unfold resolveVariable
  split
  all_goals simp_all [TemplateValues.known, List.lookup_cons, beq_false_of_ne]
  all_goals exact ⟨_, rfl⟩

namespace CommandTemplate

/-! ### The scan of an arbitrary text -/

/-- The scan from the left meets a reference that is not closed, or one whose name has no
value. -/
inductive ScanFails (values : TemplateValues) : List Char → Prop
  | unterminated {literal afterStart : List Char} (hopen : FirstAt opening literal afterStart)
      (hclose : ¬ closing <:+: afterStart) : ScanFails values (literal ++ opening ++ afterStart)
  | unresolved {literal inner rest : List Char}
      (hopen : FirstAt opening literal (inner ++ closing ++ rest))
      (hclose : FirstAt closing inner rest)
      (hname : values.known (String.ofList (trim inner)) = none) :
      ScanFails values (literal ++ opening ++ (inner ++ closing ++ rest))
  | later {literal inner rest : List Char} {value : String}
      (hopen : FirstAt opening literal (inner ++ closing ++ rest))
      (hclose : FirstAt closing inner rest)
      (hname : values.known (String.ofList (trim inner)) = some value)
      (hrest : ScanFails values rest) :
      ScanFails values (literal ++ opening ++ (inner ++ closing ++ rest))

section Loop

variable {values : TemplateValues} {literal inner rest : List Char}

theorem renderLoop_known {value : String} (rendered : List Char)
    (hopen : FirstAt opening literal (inner ++ closing ++ rest))
    (hclose : FirstAt closing inner rest)
    (hname : values.known (String.ofList (trim inner)) = some value) :
    renderLoop values rendered (literal ++ opening ++ (inner ++ closing ++ rest)) =
      renderLoop values (rendered ++ (literal ++ value.toList)) rest := by
  have hbody := loopBody_reference values hopen hclose
  rw [resolveVariable_known hname] at hbody
  exact renderLoop_pushed hbody

theorem renderLoop_unknown (rendered : List Char)
    (hopen : FirstAt opening literal (inner ++ closing ++ rest))
    (hclose : FirstAt closing inner rest)
    (hname : values.known (String.ofList (trim inner)) = none) :
    ∃ message, renderLoop values rendered (literal ++ opening ++ (inner ++ closing ++ rest)) =
      .error (.adapter (renderError message)) := by
  obtain ⟨message, herror⟩ := resolveVariable_unknown hname
  have hbody := loopBody_reference values hopen hclose
  rw [herror] at hbody
  exact ⟨message, renderLoop_error hbody⟩

theorem renderLoop_of_scanFails {remaining : List Char} (h : ScanFails values remaining)
    (rendered : List Char) :
    ∃ message, renderLoop values rendered remaining = .error (.adapter (renderError message)) := by
  induction h generalizing rendered with
  | unterminated hopen hclose => exact ⟨_, renderLoop_error (loopBody_unterminated hopen hclose)⟩
  | unresolved hopen hclose hname => exact renderLoop_unknown rendered hopen hclose hname
  | later hopen hclose hname _ ih =>
    rw [renderLoop_known rendered hopen hclose hname]
    exact ih _

/-- The induction is on the length of what remains: the scan goes on behind the reference. -/
theorem renderLoop_of_not_scanFails (n : ℕ) {remaining : List Char}
    (hlength : remaining.length ≤ n) (h : ¬ ScanFails values remaining) (rendered : List Char) :
    ∃ text, renderLoop values rendered remaining = .ok text := by
  induction n generalizing remaining rendered with
  | zero =>
    have hnil : remaining = [] := List.length_eq_zero_iff.mp (by omega)
    have hnot : ¬ opening <:+: remaining := by rw [hnil]; decide
    exact ⟨_, renderLoop_literal hnot⟩
  | succ n ih =>
    rcases scan_cases remaining with hnone | ⟨literal, afterStart, rfl, hopen, hclose⟩ |
      ⟨literal, inner, rest, rfl, hopen, hclose⟩
    · exact ⟨_, renderLoop_literal hnone⟩
    · exact absurd (.unterminated hopen hclose) h
    · cases hname : values.known (String.ofList (trim inner)) with
      | none => exact absurd (.unresolved hopen hclose hname) h
      | some value =>
        have hrest : ¬ ScanFails values rest := fun hfails =>
          h (.later hopen hclose hname hfails)
        have hshort : rest.length ≤ n := by
          simp only [List.length_append, opening, List.length_cons] at hlength
          omega
        rw [renderLoop_known rendered hopen hclose hname]
        exact ih hshort hrest _

end Loop

/-! ### Texts made of literals and references -/

structure Reference where
  leading : List Char
  name : List Char
  trailing : List Char
  leading_blank : ∀ c ∈ leading, isWhiteSpace c = true
  trailing_blank : ∀ c ∈ trailing, isWhiteSpace c = true
  name_braceless : '}' ∉ name
  name_head : ∀ c ∈ name.head?, isWhiteSpace c = false
  name_last : ∀ c ∈ name.getLast?, isWhiteSpace c = false

structure Segment where
  literal : List Char
  reference : Reference
  literal_closed : ¬ opening <:+: literal
  literal_last : literal.getLast? ≠ some '{'

structure Template where
  segments : List Segment
  last : List Char
  last_closed : ¬ opening <:+: last

def Reference.inner (reference : Reference) : List Char :=
  reference.leading ++ reference.name ++ reference.trailing

def Segment.text (segment : Segment) : List Char :=
  segment.literal ++ (opening ++ (segment.reference.inner ++ closing))

def Segment.name (segment : Segment) : String := String.ofList segment.reference.name

def Template.text (template : Template) : String :=
  String.ofList (template.segments.flatMap Segment.text ++ template.last)

def Template.substitute (template : Template) (value : String → String) : String :=
  String.ofList
    (template.segments.flatMap (fun segment => segment.literal ++ (value segment.name).toList) ++
      template.last)

theorem dropWhile_of_head {p : Char → Bool} {text : List Char}
    (h : ∀ c ∈ text.head?, p c = false) : text.dropWhile p = text := by
  cases text with
  | nil => rfl
  | cons c text =>
    have hc : p c = false := h c rfl
    simp [hc]

namespace Reference

variable (reference : Reference)

theorem trim_inner : trim reference.inner = reference.name := by
  have hleading : (reference.leading ++ reference.name ++ reference.trailing).dropWhile
      isWhiteSpace = (reference.name ++ reference.trailing).dropWhile isWhiteSpace := by
    rw [List.append_assoc]
    exact List.dropWhile_append_of_pos reference.leading_blank
  have htrailing : (reference.trailing.reverse ++ reference.name.reverse).dropWhile
      isWhiteSpace = reference.name.reverse.dropWhile isWhiteSpace := by
    apply List.dropWhile_append_of_pos
    intro c hc
    exact reference.trailing_blank c (List.mem_reverse.mp hc)
  have hlast : reference.name.reverse.dropWhile isWhiteSpace = reference.name.reverse := by
    apply dropWhile_of_head
    rw [List.head?_reverse]
    exact reference.name_last
  rw [trim, inner, hleading]
  by_cases hname : reference.name = []
  · have hblank : reference.trailing.dropWhile isWhiteSpace = [] :=
      List.dropWhile_eq_nil_iff.mpr reference.trailing_blank
    rw [hname, List.nil_append, hblank]
    rfl
  · have hhead : (reference.name ++ reference.trailing).dropWhile isWhiteSpace =
        reference.name ++ reference.trailing := by
      apply dropWhile_of_head
      rw [List.head?_append_of_ne_nil _ hname]
      exact reference.name_head
    rw [hhead, List.reverse_append, htrailing, hlast, List.reverse_reverse]

theorem braceless_inner : '}' ∉ reference.inner := by
  have hblank : isWhiteSpace '}' = false := by decide
  intro hmem
  simp only [inner, List.mem_append] at hmem
  rcases hmem with (hmem | hmem) | hmem
  · have := reference.leading_blank _ hmem
    simp [hblank] at this
  · exact reference.name_braceless hmem
  · have := reference.trailing_blank _ hmem
    simp [hblank] at this

end Reference

section Segments

variable {values : TemplateValues} (segment : Segment) (rest : List Char)

theorem firstAt_opening (afterStart : List Char) :
    FirstAt opening segment.literal afterStart :=
  firstAt_pair afterStart segment.literal_closed segment.literal_last

theorem firstAt_closing : FirstAt closing segment.reference.inner rest :=
  firstAt_of_not_mem rest segment.reference.braceless_inner

theorem segment_append : segment.text ++ rest =
    segment.literal ++ opening ++ (segment.reference.inner ++ closing ++ rest) := by
  simp [Segment.text]

theorem renderLoop_segment {value : String} (rendered : List Char)
    (h : values.known segment.name = some value) :
    renderLoop values rendered (segment.text ++ rest) =
      renderLoop values (rendered ++ (segment.literal ++ value.toList)) rest := by
  rw [segment_append]
  apply renderLoop_known rendered (firstAt_opening segment _) (firstAt_closing segment rest)
  rw [segment.reference.trim_inner]
  exact h

theorem renderLoop_segment_unknown (rendered : List Char)
    (h : values.known segment.name = none) :
    ∃ message, renderLoop values rendered (segment.text ++ rest) =
      .error (.adapter (renderError message)) := by
  rw [segment_append]
  apply renderLoop_unknown rendered (firstAt_opening segment _) (firstAt_closing segment rest)
  rw [segment.reference.trim_inner]
  exact h

theorem renderLoop_segments {segments : List Segment} {last : List Char}
    (hlast : ¬ opening <:+: last) {value : String → String}
    (h : ∀ segment ∈ segments, values.known segment.name = some (value segment.name))
    (rendered : List Char) :
    renderLoop values rendered (segments.flatMap Segment.text ++ last) =
      .ok (rendered ++ (segments.flatMap
        (fun segment => segment.literal ++ (value segment.name).toList) ++ last)) := by
  induction segments generalizing rendered with
  | nil => exact renderLoop_literal hlast
  | cons segment segments ih =>
    have hhead := h segment List.mem_cons_self
    have htail : ∀ segment ∈ segments, values.known segment.name = some (value segment.name) :=
      fun other hother => h other (List.mem_cons_of_mem segment hother)
    rw [List.flatMap_cons, List.append_assoc, renderLoop_segment segment _ rendered hhead,
      ih htail]
    simp

theorem renderLoop_segments_unknown {segments : List Segment} (last : List Char)
    (h : ∃ segment ∈ segments, values.known segment.name = none) (rendered : List Char) :
    ∃ message, renderLoop values rendered (segments.flatMap Segment.text ++ last) =
      .error (.adapter (renderError message)) := by
  induction segments generalizing rendered with
  | nil => simp at h
  | cons segment segments ih =>
    rw [List.flatMap_cons, List.append_assoc]
    cases hname : values.known segment.name with
    | none => exact renderLoop_segment_unknown segment _ rendered hname
    | some value =>
      obtain ⟨other, hmem, hother⟩ := h
      have htail : ∃ segment ∈ segments, values.known segment.name = none := by
        rcases List.mem_cons.mp hmem with rfl | hmem
        · simp [hname] at hother
        · exact ⟨other, hmem, hother⟩
      rw [renderLoop_segment segment _ rendered hname]
      exact ih htail _

end Segments

section Render

variable (values : TemplateValues)

theorem render_template (template : Template) {value : String → String}
    (h : ∀ segment ∈ template.segments, values.known segment.name = some (value segment.name)) :
    render template.text values = .ok (template.substitute value) := by
  rw [render, Template.text, String.toList_ofList, renderLoop_segments template.last_closed h]
  rfl

theorem render_template_unknown (template : Template)
    (h : ∃ segment ∈ template.segments, values.known segment.name = none) :
    ∃ message, render template.text values = .error (.adapter (renderError message)) := by
  obtain ⟨message, herror⟩ := renderLoop_segments_unknown template.last h []
  refine ⟨message, ?_⟩
  rw [render, Template.text, String.toList_ofList, herror]
  rfl

theorem render_of_scanFails {input : String} (h : ScanFails values input.toList) :
    ∃ message, render input values = .error (.adapter (renderError message)) := by
  obtain ⟨message, herror⟩ := renderLoop_of_scanFails h []
  refine ⟨message, ?_⟩
  rw [render, herror]
  rfl

theorem render_of_not_scanFails {input : String} (h : ¬ ScanFails values input.toList) :
    ∃ text, render input values = .ok text := by
  obtain ⟨text, htext⟩ := renderLoop_of_not_scanFails _ (le_refl _) h []
  refine ⟨String.ofList text, ?_⟩
  rw [render, htext]
  rfl

theorem forall_of_renderArgs {args rendered : List String}
    (h : renderArgs args values = .ok rendered) :
    List.Forall₂ (fun arg text => render arg values = .ok text) args rendered := by
  induction args generalizing rendered with
  | nil =>
    obtain rfl : rendered = [] := by
      simpa [renderArgs, pure, Except.pure] using h.symm
    exact .nil
  | cons arg args ih =>
    simp only [renderArgs, List.mapM_cons] at h ih
    cases hhead : render arg values with
    | error error => simp [hhead, Call.error_bind] at h
    | ok text =>
      cases htail : args.mapM fun arg => render arg values with
      | error error => simp [hhead, htail, Call.ok_bind] at h
      | ok texts =>
        obtain rfl : text :: texts = rendered := by
          simpa [hhead, htail, Call.ok_bind, pure, Except.pure] using h
        exact .cons hhead (ih htail)

theorem renderArgs_of_forall {args : List String}
    (h : ∀ arg ∈ args, ∃ text, render arg values = .ok text) :
    ∃ rendered, renderArgs args values = .ok rendered := by
  induction args with
  | nil => exact ⟨[], rfl⟩
  | cons arg args ih =>
    obtain ⟨text, hhead⟩ := h arg List.mem_cons_self
    obtain ⟨texts, htail⟩ := ih fun other hother => h other (List.mem_cons_of_mem arg hother)
    refine ⟨text :: texts, ?_⟩
    simp only [renderArgs] at htail
    simp [renderArgs, List.mapM_cons, hhead, htail, Call.ok_bind, pure, Except.pure]

/-- Rendering is exact. A text made of literals and references becomes the literals and the
values, each value as it is; every other text is rendered as well, unless the scan from the left
meets a reference it cannot resolve; the arguments are rendered one by one. -/
theorem render_exact :
    (∀ template : Template,
      (∀ value : String → String,
        (∀ segment ∈ template.segments,
          values.known segment.name = some (value segment.name)) →
        render template.text values = .ok (template.substitute value)) ∧
      ((∃ segment ∈ template.segments, values.known segment.name = none) →
        ∃ message, render template.text values =
          .error (.adapter ⟨"command_render_failed", message⟩))) ∧
    (∀ input : String,
      ((∃ text, render input values = .ok text) ∨
        ∃ message, render input values =
          .error (.adapter ⟨"command_render_failed", message⟩)) ∧
      ((∃ error, render input values = .error error) ↔ ScanFails values input.toList)) ∧
    (∀ args : List String,
      ((∃ rendered, renderArgs args values = .ok rendered) ↔
        ∀ arg ∈ args, ∃ text, render arg values = .ok text) ∧
      ∀ rendered, renderArgs args values = .ok rendered →
        rendered.length = args.length ∧
        ∀ i (h : i < args.length) (h' : i < rendered.length),
          render args[i] values = .ok rendered[i]) := by
  refine ⟨?_, ?_, ?_⟩
  · intro template
    exact ⟨fun value h => render_template values template h,
      fun h => render_template_unknown values template h⟩
  · intro input
    by_cases hfails : ScanFails values input.toList
    · obtain ⟨message, herror⟩ := render_of_scanFails values hfails
      exact ⟨.inr ⟨message, herror⟩, fun _ => hfails, fun _ => ⟨_, herror⟩⟩
    · obtain ⟨text, htext⟩ := render_of_not_scanFails values hfails
      refine ⟨.inl ⟨text, htext⟩, ?_, fun h => absurd h hfails⟩
      rintro ⟨error, herror⟩
      rw [htext] at herror
      simp at herror
  · intro args
    refine ⟨⟨?_, renderArgs_of_forall values⟩, ?_⟩
    · rintro ⟨rendered, h⟩ arg harg
      have hall := forall_of_renderArgs values h
      obtain ⟨i, hi, rfl⟩ := List.getElem_of_mem harg
      have hi' : i < rendered.length := by
        rw [← hall.length_eq]
        exact hi
      exact ⟨rendered[i], hall.get hi hi'⟩
    · intro rendered h
      have hall := forall_of_renderArgs values h
      refine ⟨hall.length_eq.symm, ?_⟩
      intro i hi hi'
      exact hall.get hi hi'

end Render

section Sample

def promptValues : TemplateValues :=
  ⟨some "say \x7b\x7bmodel\x7d\x7d", some "fast", none, none, none, none⟩

def promptReference : Reference where
  leading := [' ']
  name := ['p', 'r', 'o', 'm', 'p', 't']
  trailing := []
  leading_blank := by
    intro c hc
    obtain rfl := List.mem_singleton.mp hc
    decide
  trailing_blank := by
    intro c hc
    simp at hc
  name_braceless := by decide
  name_head := by
    intro c hc
    obtain rfl : 'p' = c := by simpa using hc
    decide
  name_last := by
    intro c hc
    obtain rfl : 't' = c := by simpa using hc
    decide

def promptTemplate : Template where
  segments := [⟨['-', 'p', '='], promptReference, by decide, by decide⟩]
  last := []
  last_closed := by decide

theorem render_exact_prompt :
    CommandTemplate.render promptTemplate.text promptValues =
      .ok (promptTemplate.substitute fun _ => "say \x7b\x7bmodel\x7d\x7d") := by
  apply ((render_exact promptValues).1 promptTemplate).1
  intro segment hsegment
  obtain rfl := List.mem_singleton.mp hsegment
  rfl

end Sample

end CommandTemplate

end OpenDaemon
