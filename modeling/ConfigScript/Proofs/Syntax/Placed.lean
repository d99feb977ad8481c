import ConfigScript.Proofs.Syntax.Nodes

/-!
# Places in a source

What it means that a span or a failure tells a place of a source exactly, and that the nodes of a
tree stand inside each other and one behind another. A reader keeps this when all that it fails
with and all that it yields is placed so.
-/

namespace ConfigScript

/-- A source is cut in three at the ends of the span, and line and column are those behind the
first part. -/
def Span.Exact (source : String) (span : Span) : Prop :=
  ∃ before text rest : String, source = before ++ text ++ rest ∧
    span = (Position.behind before).spanTo (Position.behind (before ++ text))

/-- A source is cut in two at the place of the failure, which quotes what stands there. -/
def Failure.Exact (source : String) (failure : Failure) : Prop :=
  ∃ before rest : String, source = before ++ rest ∧
    failure = .ofCursor failure.cause ⟨rest.toList, .behind before⟩

theorem Span.Exact.fits {source : String} {span : Span} (h : span.Exact source)
    (hlength : source.length + 1 < UInt32.size) : span.Fits := by
  obtain ⟨before, text, rest, hsource, rfl⟩ := h
  have hstop := Position.fits_behind hsource hlength
  rw [String.append_assoc] at hsource
  have hstart := Position.fits_behind hsource hlength
  exact ⟨hstart.1, hstop.1, hstart.2⟩

theorem Failure.Exact.fits {source : String} {failure : Failure} (h : failure.Exact source)
    (hlength : source.length + 1 < UInt32.size) : failure.position.Fits := by
  obtain ⟨before, rest, hsource, hfailure⟩ := h
  rw [hfailure]
  exact Position.fits_behind hsource hlength

/-- A node has an exact span, in which its children stand one behind another. -/
structure Node.Placed (source : String) (node : Node) : Prop where
  exact : node.span.Exact source
  encloses : ∀ child ∈ node.children,
    node.span.start ≤ child.span.start ∧ child.span.stop ≤ node.span.stop
  ordered : node.children.Pairwise fun first second => first.span.stop < second.span.start

namespace Cursor

variable {start middle stop : Cursor} {source : String}

/-- Whether a cursor comes before another one of the same source. -/
def Precedes (start stop : Cursor) : Prop :=
  ∃ text, start.Reads text stop

theorem Reads.precedes {text : List Char} (h : start.Reads text stop) : start.Precedes stop :=
  ⟨text, h⟩

theorem Precedes.refl : start.Precedes start :=
  ⟨[], .refl⟩

theorem Precedes.trans : start.Precedes middle → middle.Precedes stop → start.Precedes stop
  | ⟨_, hfirst⟩, ⟨_, hsecond⟩ => (hfirst.trans hsecond).precedes

theorem Precedes.offset_le : start.Precedes stop → start.position.offset ≤ stop.position.offset
  | ⟨_, h⟩ => h.offset_le

theorem Precedes.length_le (h : start.Precedes stop) : stop.rest.length ≤ start.rest.length := by
  obtain ⟨text, hreads⟩ := h
  rw [hreads.rest, List.length_append]
  omega

/-- Whether a cursor comes before another one of the same source, with something between them. -/
def Advances (start stop : Cursor) : Prop :=
  ∃ text, text ≠ [] ∧ start.Reads text stop

theorem Reads.advances {text : List Char} (h : start.Reads text stop) (htext : text ≠ []) :
    start.Advances stop :=
  ⟨text, htext, h⟩

theorem Precedes.advances (h : start.Precedes middle) (hstop : middle.Advances stop) :
    start.Advances stop := by
  obtain ⟨text, hreads⟩ := h
  obtain ⟨others, hothers, hbehind⟩ := hstop
  exact (hreads.trans hbehind).advances (by simp [hothers])

namespace Advances

theorem precedes (h : start.Advances stop) : start.Precedes stop := by
  obtain ⟨text, -, hreads⟩ := h
  exact hreads.precedes

theorem trans (h : start.Advances middle) (hstop : middle.Precedes stop) : start.Advances stop := by
  obtain ⟨text, htext, hreads⟩ := h
  obtain ⟨others, hothers⟩ := hstop
  exact (hreads.trans hothers).advances (by simp [htext])

theorem length_lt (h : start.Advances stop) : stop.rest.length < start.rest.length := by
  obtain ⟨text, htext, hreads⟩ := h
  have hpos := List.length_pos_of_ne_nil htext
  rw [hreads.rest, List.length_append]
  omega

theorem offset_lt (h : start.Advances stop) : start.position.offset < stop.position.offset := by
  obtain ⟨text, htext, hreads⟩ := h
  exact hreads.offset_lt htext

end Advances

/-- Whether a cursor stands in a source. -/
def In (source : String) (cursor : Cursor) : Prop :=
  (ofSource source).Precedes cursor

theorem in_ofSource : (ofSource source).In source :=
  .refl

theorem In.later (h : start.In source) (hstop : start.Precedes stop) : stop.In source :=
  Precedes.trans h hstop

theorem In.step {c : Char} {cs : List Char} {position : Position}
    (h : In source ⟨c :: cs, position⟩) : In source ⟨cs, position.after c⟩ :=
  h.later ⟨[c], rfl, rfl⟩

theorem exact_spanTo (h : start.In source) (hstop : start.Precedes stop) :
    (start.spanTo stop).Exact source := by
  obtain ⟨before, hbefore⟩ := h
  obtain ⟨text, htext⟩ := hstop
  have hsource : source.toList = before ++ text ++ stop.rest := (hbefore.trans htext).rest
  refine ⟨.ofList before, .ofList text, .ofList stop.rest, ?_, ?_⟩
  · rw [← String.ofList_append, ← String.ofList_append, ← hsource, String.ofList_toList]
  · have hstart : start.position = .behind (.ofList before) :=
      hbefore.position.trans Position.afterAll_origin
    have hend : stop.position = .behind (.ofList (before ++ text)) :=
      (hbefore.trans htext).position.trans Position.afterAll_origin
    rw [← String.ofList_append, ← hstart, ← hend]
    rfl

theorem exact_ofCursor {cursor : Cursor} {cause : Failure.Cause} (h : cursor.In source) :
    (Failure.ofCursor cause cursor).Exact source := by
  obtain ⟨before, hbefore⟩ := h
  refine ⟨.ofList before, .ofList cursor.rest, ?_, ?_⟩
  · rw [← String.ofList_append, ← hbefore.rest]
    exact String.ofList_toList.symm
  · rw [← Position.afterAll_origin, String.toList_ofList]
    exact congrArg (Failure.ofCursor cause ⟨cursor.rest, ·⟩) hbefore.position

end Cursor

/-- Whether nodes stand between two cursors, one behind another, and are placed all the way down. -/
structure Filled (source : String) (start stop : Cursor) (nodes : List Node) : Prop where
  precedes : start.Precedes stop
  inside : ∀ node ∈ nodes,
    start.position.offset ≤ node.span.start ∧ node.span.stop ≤ stop.position.offset
  placed : ∀ node ∈ nodes, node.Everywhere (Node.Placed source)
  ordered : nodes.Pairwise fun first second => first.span.stop < second.span.start

/-- Whether nodes stand behind a cursor, with something between it and the first of them. -/
def Apart (source : String) (start stop : Cursor) (nodes : List Node) : Prop :=
  ∃ inside, start.Precedes inside ∧
    (nodes ≠ [] → start.position.offset < inside.position.offset) ∧
    Filled source inside stop nodes

namespace Filled

variable {source : String} {start stop first last : Cursor} {nodes others : List Node}
  {node : Node}

theorem empty (h : start.Precedes stop) : Filled source start stop [] where
  precedes := h
  inside := nofun
  placed := nofun
  ordered := .nil

theorem widen (h : Filled source start stop nodes) (hfirst : first.Precedes start)
    (hlast : stop.Precedes last) : Filled source first last nodes where
  precedes := hfirst.trans (h.precedes.trans hlast)
  inside node hnode := by
    have hinside := h.inside node hnode
    have hle := hfirst.offset_le
    have hge := hlast.offset_le
    omega
  placed := h.placed
  ordered := h.ordered

/-- Nodes stand behind others when something stands between the two. -/
theorem append (h : Filled source first start nodes) (hothers : Apart source start last others) :
    Filled source first last (nodes ++ others) := by
  obtain ⟨stop, hbetween, hapart, hothers⟩ := hothers
  have hle := h.precedes.offset_le
  have hgap := hbetween.offset_le
  have hge := hothers.precedes.offset_le
  refine ⟨h.precedes.trans (hbetween.trans hothers.precedes), fun node hnode => ?_,
    fun node hnode => ?_, ?_⟩
  · rcases List.mem_append.mp hnode with hnode | hnode
    · have hinside := h.inside node hnode
      omega
    · have hinside := hothers.inside node hnode
      omega
  · exact (List.mem_append.mp hnode).elim (h.placed node) (hothers.placed node)
  · refine List.pairwise_append.mpr ⟨h.ordered, hothers.ordered, fun node hnode other hother => ?_⟩
    have hbefore := h.inside node hnode
    have hbehind := hothers.inside other hother
    have hlt := hapart (List.ne_nil_of_mem hother)
    omega

/-- A node is placed when its children are, within its span. -/
theorem single (node : Node) (h : Filled source start stop node.children) (hstart : start.In source)
    (hspan : node.span = start.spanTo stop) : Filled source start stop [node] where
  precedes := h.precedes
  inside other hother := by
    obtain rfl := List.mem_singleton.mp hother
    rw [hspan]
    exact ⟨Nat.le_refl _, Nat.le_refl _⟩
  placed other hother := by
    obtain rfl := List.mem_singleton.mp hother
    refine Node.everywhere_iff.mpr ⟨⟨?_, ?_, h.ordered⟩, h.placed⟩
    · rw [hspan]
      exact Cursor.exact_spanTo hstart h.precedes
    · rw [hspan]
      exact h.inside
  ordered := List.pairwise_singleton _ _

/-- An expression that is a statement stands where the statement does. -/
theorem exprStatement {value : Expr} (h : Filled source start stop [.expr value]) :
    Filled source start stop [.statement (.expr value)] where
  precedes := h.precedes
  inside := by simpa [Node.span, Statement.span] using h.inside
  placed := by
    have hvalue := h.placed _ List.mem_cons_self
    have hchildren : (Node.statement (.expr value)).children = [.expr value] := rfl
    simp only [List.mem_singleton, forall_eq]
    refine Node.everywhere_iff.mpr ⟨⟨hvalue.here.exact, ?_, ?_⟩, ?_⟩
    · simp [hchildren, Node.span, Statement.span]
    · exact List.pairwise_singleton _ _
    · simpa [hchildren] using hvalue
  ordered := List.pairwise_singleton _ _

end Filled

end ConfigScript
