import Pergamon.Opml

/-!
What the OPML parser makes of a balanced body, and of a document that was generated.

Between two events, the outlines so far stand in document order, each as deep as the stack was long
when it began (`Open.run`). So the parsed forest has every outline below its nearest folder iff the
stack was always as long as there were folders around, and that is so iff no outline follows the
end tag of a feed inside one outermost folder (`parse_opml_iff`).
-/
namespace Pergamon
open Fallible OrderedTree

/-! ### Balanced bodies -/

/-- An event that says nothing about outlines: text, comments and the tags of other elements. -/
def Event.passive : Event → Bool
  | .Start name _ => name ≠ "head" && name ≠ "body" && name ≠ "outline"
  | .Empty name _ => name ≠ "outline"
  | .End name => name ≠ "head" && name ≠ "body" && name ≠ "outline"
  | .Text _ => true
  | .GeneralRef _ _ => true
  | .Other => true

/-- A part of a body: an outline that closes itself, one with an end tag, or any other event. -/
inductive Markup where
  | SelfClosed (attributes : List (String × String))
  | Element (attributes : List (String × String)) (children : List Markup)
  | Passing (event : {e : Event // e.passive})

def Outline.put (o : Outline) (attr : String × String) : Outline :=
  match attr.1 with
  | "text" => { o with text := attr.2 }
  | "title" => { o with title := some attr.2 }
  | "xmlUrl" => { o with xml_url := some attr.2 }
  | "htmlUrl" => { o with html_url := some attr.2 }
  | "type" => { o with feed_type := some attr.2 }
  | _ => o

/-- The outline that attributes stand for. -/
def outline_of (attributes : List (String × String)) : Outline :=
  (attributes.foldl Outline.put ⟨"",none,none,none,none⟩).with_text

mutual
/-- The events of a part. -/
def Markup.events : Markup → List Event
  | .SelfClosed attributes => [.Empty "outline" (as_read attributes)]
  | .Element attributes children => .Start "outline" (as_read attributes) :: (events children ++ [.End "outline"])
  | .Passing event => [event.val]
/-- The events of a body. -/
def events : List Markup → List Event
  | [] => []
  | m :: ms => m.events ++ events ms
end

mutual
/-- The outlines of a part, each below its nearest folder. -/
def Markup.forest : Markup → List OpmlOutline
  | .SelfClosed attributes => [.node (outline_of attributes) []]
  | .Element attributes children =>
    if (outline_of attributes).is_feed then .node (outline_of attributes) [] :: forest children
    else [.node (outline_of attributes) (forest children)]
  | .Passing _ => []
/-- The outlines of a body, each below its nearest folder. -/
def forest : List Markup → List OpmlOutline
  | [] => []
  | m :: ms => m.forest ++ forest ms
end

mutual
/-- A part holds the end tag of a feed. -/
def Markup.closes_feed : Markup → Bool
  | .Element attributes children => (outline_of attributes).is_feed || closes_feed children
  | _ => false
def closes_feed : List Markup → Bool
  | [] => false
  | m :: ms => m.closes_feed || closes_feed ms
end

/-- A part begins an outline. -/
def Markup.opens : Markup → Bool
  | .Passing _ => false
  | _ => true

mutual
/-- In a folder, no outline follows the end tag of a feed. -/
def Markup.straight : Markup → Bool
  | .Element _ children => straight children
  | _ => true
def straight : List Markup → Bool
  | [] => true
  | m :: ms => m.straight && (!m.closes_feed || ms.all (fun m => !m.opens)) && straight ms
end

mutual
/-- In no outermost folder does an outline follow the end tag of a feed. -/
def Markup.orderly : Markup → Bool
  | .Element attributes children => if (outline_of attributes).is_feed then orderly children else straight children
  | _ => true
def orderly : List Markup → Bool
  | [] => true
  | m :: ms => m.orderly && orderly ms
end

theorem markup_induction {motive : List Markup → Prop} (nil : motive [])
    (self_closed : ∀ attributes rest, motive rest → motive (.SelfClosed attributes :: rest))
    (element : ∀ attributes children rest, motive children → motive rest → motive (.Element attributes children :: rest))
    (passing : ∀ event rest, motive rest → motive (.Passing event :: rest)) (ms : List Markup) : motive ms := by
  have each (m : Markup) : (∀ attributes children, m = .Element attributes children → motive children) ∧
      ∀ rest, motive rest → motive (m :: rest) := by
    refine @Markup.rec (fun m => (∀ attributes children, m = .Element attributes children → motive children) ∧
      ∀ rest, motive rest → motive (m :: rest)) motive ?_ ?_ ?_ nil ?_ m
    · intro attributes
      exact ⟨nofun,self_closed attributes⟩
    · intro attributes children below
      refine ⟨?_,fun rest after => element attributes children rest below after⟩
      rintro _ _ ⟨⟩
      exact below
    · intro event
      exact ⟨nofun,passing event⟩
    · intro m rest below after
      exact below.2 rest after
  induction ms with
  | nil => exact nil
  | cons m ms ih => exact (each m).2 ms ih

/-! ### The stack -/

mutual
/-- The outlines of a part, each with the length that the stack has when it begins. -/
def Markup.starts (a : ℕ) : Markup → List (ℕ × Outline)
  | .SelfClosed attributes => [(a,outline_of attributes)]
  | .Element attributes children =>
    (a,outline_of attributes) :: starts (if (outline_of attributes).is_feed then a else a + 1) children
  | .Passing _ => []
/-- The length of the stack after a part. -/
def Markup.finish (a : ℕ) : Markup → ℕ
  | .Element attributes children => finish (if (outline_of attributes).is_feed then a else a + 1) children - 1
  | _ => a
def starts (a : ℕ) : List Markup → List (ℕ × Outline)
  | [] => []
  | m :: ms => m.starts a ++ starts (m.finish a) ms
def finish (a : ℕ) : List Markup → ℕ
  | [] => a
  | m :: ms => finish (m.finish a) ms
end

theorem finish_le (a : ℕ) (ms : List Markup) : finish a ms ≤ a := by
  induction ms using markup_induction generalizing a with
  | nil => rw [finish]
  | self_closed attributes rest ih => simpa [finish,Markup.finish] using ih a
  | element attributes children rest ih ih' =>
    rw [finish,Markup.finish]
    refine (ih' _).trans ?_
    split_ifs
    · have := ih a
      omega
    · have := ih (a + 1)
      omega
  | passing event rest ih => simpa [finish,Markup.finish] using ih a

/-- A body without end tags of feeds leaves the stack as it was. -/
theorem finish_eq {ms : List Markup} (without : closes_feed ms = false) (a : ℕ) : finish a ms = a := by
  induction ms using markup_induction generalizing a with
  | nil => rw [finish]
  | self_closed attributes rest ih => simpa [finish,Markup.finish,closes_feed,Markup.closes_feed] using ih without a
  | element attributes children rest ih ih' =>
    simp only [closes_feed,Markup.closes_feed,Bool.or_eq_false_iff] at without
    obtain ⟨⟨folder,below⟩,after⟩ := without
    rw [finish,Markup.finish,folder,if_neg (by simp),ih below,Nat.add_sub_cancel,ih' after]
  | passing event rest ih => simpa [finish,Markup.finish,closes_feed,Markup.closes_feed] using ih without a

/-- The end tag of a feed takes a folder off the stack. -/
theorem finish_lt {ms : List Markup} (within : closes_feed ms = true) {a : ℕ} (inside : 0 < a) : finish a ms < a := by
  induction ms using markup_induction generalizing a with
  | nil => simp [closes_feed] at within
  | self_closed attributes rest ih =>
    have later := ih (by simpa [closes_feed,Markup.closes_feed] using within) inside
    simpa [finish,Markup.finish] using later
  | element attributes children rest ih ih' =>
    rw [finish,Markup.finish]
    by_cases feed : (outline_of attributes).is_feed
    · rw [if_pos feed]
      have := finish_le a children
      have := finish_le (finish a children - 1) rest
      omega
    · simp only [closes_feed,Markup.closes_feed,feed,Bool.false_or,Bool.or_eq_true] at within
      rw [if_neg feed]
      by_cases below : closes_feed children
      · have := ih below (show 0 < a + 1 by omega)
        have := finish_le (finish (a + 1) children - 1) rest
        omega
      · have apart : closes_feed children = false := by simpa using below
        rw [finish_eq apart,Nat.add_sub_cancel]
        exact ih' (within.resolve_left below) inside
  | passing event rest ih =>
    have later := ih (by simpa [closes_feed,Markup.closes_feed] using within) inside
    simpa [finish,Markup.finish] using later

theorem append_split {α : Type} {l l' r r' : List α} (same : l.length = l'.length) : l ++ r = l' ++ r' ↔ l = l' ∧ r = r' := by
  refine ⟨fun whole => List.append_inj whole same,?_⟩
  rintro ⟨rfl,rfl⟩
  rfl

theorem length_starts (a d : ℕ) (ms : List Markup) : (starts a ms).length = (places d (forest ms)).length := by
  induction ms using markup_induction generalizing a d with
  | nil => simp [starts,forest]
  | self_closed attributes rest ih => simp [starts,Markup.starts,Markup.finish,forest,Markup.forest,ih a d]
  | element attributes children rest ih ih' =>
    simp only [starts,Markup.starts,forest,Markup.forest,List.length_append,List.length_cons,places_append,
      ih' _ d]
    split_ifs
    · simp [ih a d]
    · simp [ih (a + 1) (d + 1)]
  | passing event rest ih => simp [starts,Markup.starts,Markup.finish,forest,Markup.forest,ih a d]

/-- With a stack that is too short, the next outline ends up too high. -/
theorem starts_short {a d : ℕ} (short : a < d) (ms : List Markup) :
    starts a ms = places d (forest ms) ↔ ms.all (fun m => !m.opens) := by
  induction ms with
  | nil => simp [starts,forest]
  | cons m ms ih =>
    cases m with
    | SelfClosed attributes => simp [starts,Markup.starts,forest,Markup.forest,Markup.opens,short.ne]
    | Element attributes children =>
      simp only [starts,Markup.starts,forest,Markup.forest,List.all_cons,Markup.opens]
      split_ifs <;> simp [short.ne]
    | Passing event => simp [starts,Markup.starts,Markup.finish,forest,Markup.forest,Markup.opens,ih]

theorem straight_of_passing {ms : List Markup} (none : ms.all (fun m => !m.opens)) : straight ms := by
  induction ms with
  | nil => rw [straight]
  | cons m ms ih =>
    rw [List.all_cons,Bool.and_eq_true] at none
    cases m with
    | SelfClosed attributes => simp [Markup.opens] at none
    | Element attributes children => simp [Markup.opens] at none
    | Passing event => simp [straight,Markup.straight,Markup.closes_feed,ih none.2]

/-- In a folder, every outline is as deep as it should be iff none follows the end tag of a feed. -/
theorem starts_straight {d : ℕ} (inside : 0 < d) (ms : List Markup) : starts d ms = places d (forest ms) ↔ straight ms := by
  induction ms using markup_induction generalizing d with
  | nil => simp [starts,forest,straight]
  | self_closed attributes rest ih =>
    simp [starts,Markup.starts,Markup.finish,forest,Markup.forest,straight,Markup.straight,Markup.closes_feed,ih inside]
  | element attributes children rest ih ih' =>
    have first : (Markup.Element attributes children).starts d = places d (Markup.Element attributes children).forest ↔
        straight children := by
      by_cases feed : (outline_of attributes).is_feed
      · simp [Markup.starts,Markup.forest,feed,ih inside]
      · simp [Markup.starts,Markup.forest,feed,ih (show 0 < d + 1 by omega)]
    have long : ((Markup.Element attributes children).starts d).length =
        (places d (Markup.Element attributes children).forest).length := by
      have := length_starts d d [.Element attributes children]
      simpa [starts,forest] using this
    have split : starts d (.Element attributes children :: rest) = places d (forest (.Element attributes children :: rest)) ↔
        straight children ∧ starts ((Markup.Element attributes children).finish d) rest = places d (forest rest) := by
      rw [starts,forest,places_append,append_split long,first]
    have whole : finish d [.Element attributes children] = (Markup.Element attributes children).finish d := by
      rw [finish,finish]
    have closing : closes_feed [.Element attributes children] = (Markup.Element attributes children).closes_feed := by
      simp [closes_feed]
    rw [split,straight,Markup.straight]
    by_cases closes : (Markup.Element attributes children).closes_feed
    · have short := finish_lt (closing.trans closes) inside
      rw [whole] at short
      rw [starts_short short,closes]
      constructor
      · rintro ⟨below,none⟩
        simp [below,none,straight_of_passing none]
      · intro all
        simp only [Bool.not_true,Bool.false_or,Bool.and_eq_true] at all
        exact all.1
    · have same := finish_eq (closing.trans (by simpa using closes)) d
      rw [whole] at same
      rw [same,ih' inside]
      simp [closes]
  | passing event rest ih =>
    simp [starts,Markup.starts,Markup.finish,forest,Markup.forest,straight,Markup.straight,Markup.closes_feed,ih inside]

/-- Every outline is as deep as it should be iff, in no outermost folder, one follows the end tag of
    a feed. -/
theorem starts_orderly (ms : List Markup) : starts 0 ms = places 0 (forest ms) ↔ orderly ms := by
  induction ms using markup_induction with
  | nil => simp [starts,forest,orderly]
  | self_closed attributes rest ih => simp [starts,Markup.starts,Markup.finish,forest,Markup.forest,orderly,Markup.orderly,ih]
  | element attributes children rest ih ih' =>
    have done : (Markup.Element attributes children).finish 0 = 0 := by
      have := finish_le 0 [.Element attributes children]
      simpa [finish] using this
    by_cases feed : (outline_of attributes).is_feed
    · have long := length_starts 0 0 children
      simp [starts,Markup.starts,forest,Markup.forest,orderly,Markup.orderly,feed,done,places_append,
        append_split long,ih,ih']
    · have long := length_starts 1 1 children
      simp [starts,Markup.starts,forest,Markup.forest,orderly,Markup.orderly,feed,done,
        append_split long,ih',starts_straight]
  | passing event rest ih => simp [starts,Markup.starts,Markup.finish,forest,Markup.forest,orderly,Markup.orderly,ih]

/-! ### The parser -/

theorem take_attributes (o : Outline) (attributes : List (String × String)) :
    (as_read attributes).foldlM Outline.take_attribute o = .ok (attributes.foldl Outline.put o) := by
  induction attributes generalizing o with
  | nil => rfl
  | cons a attributes ih =>
    have first : o.take_attribute (.read a.1 a.2) = .ok (o.put a) := by
      unfold Outline.take_attribute Outline.put
      split <;> simp_all
    rw [as_read,List.map_cons,List.foldlM_cons,first]
    exact ih (o.put a)

theorem parse_attributes (attributes : List (String × String)) :
    parse_outline_attrs (as_read attributes) = .ok (outline_of attributes) := by
  rw [parse_outline_attrs,take_attributes]
  rfl

/-- The outlines on the stack, in document order. -/
def open_places : List (List OpmlOutline) → List (ℕ × Outline)
  | [] => []
  | [] :: stack => open_places stack
  | (folder :: children) :: stack => open_places stack ++ (stack.length,folder.label) :: places (stack.length + 1) children

namespace OpmlParser
variable {p : OpmlParser}

/-- The outlines so far, each with the length that the stack had when it began. -/
def shown (p : OpmlParser) : List (ℕ × Outline) := places 0 p.root_outlines ++ open_places p.outline_stack

/-- In the body, with a folder in every entry of the stack. -/
structure Open (p : OpmlParser) : Prop where
  in_head : p.in_head = false
  in_title : p.in_title = false
  in_body : p.in_body = true
  folders : ∀ entry ∈ p.outline_stack, entry ≠ []

/-- The parser went on from one point of the body to another. -/
structure Went (p q : OpmlParser) (shows : List (ℕ × Outline)) (depth : ℕ) : Prop where
  still : q.Open
  title : q.title = p.title
  shown : q.shown = p.shown ++ shows
  depth : q.outline_stack.length = depth

theorem push_went (here : p.Open) (o : Outline) :
    Went p (p.push_outline (.node o [])) [(p.outline_stack.length,o)] p.outline_stack.length := by
  obtain ⟨title,in_head,in_title,in_body,stack,root⟩ := p
  obtain ⟨head,titled,body,folders⟩ := here
  cases stack with
  | nil => exact ⟨⟨head,titled,body,folders⟩,rfl,by simp [push_outline,OpmlParser.shown,open_places,places_append],rfl⟩
  | cons entry stack =>
    cases entry with
    | nil => exact absurd rfl (folders [] List.mem_cons_self)
    | cons folder children =>
      refine ⟨⟨head,titled,body,?_⟩,rfl,?_,rfl⟩
      · intro entry inside
        rcases List.mem_cons.mp inside with rfl | later
        · exact List.cons_ne_nil _ _
        · exact folders entry (List.mem_cons_of_mem _ later)
      · simp [push_outline,OpmlParser.shown,open_places,places_append]

theorem open_went (here : p.Open) (o : Outline) :
    Went p { p with outline_stack := [.node o []] :: p.outline_stack } [(p.outline_stack.length,o)]
      (p.outline_stack.length + 1) := by
  obtain ⟨head,titled,body,folders⟩ := here
  refine ⟨⟨head,titled,body,?_⟩,rfl,?_,rfl⟩
  · intro entry inside
    rcases List.mem_cons.mp inside with rfl | later
    · exact List.cons_ne_nil _ _
    · exact folders entry later
  · simp [OpmlParser.shown,open_places,OrderedTree.Tree.label]

/-- An end tag leaves the outlines in their order and at their depths. -/
theorem pop_went (here : p.Open) : Went p p.pop_folder [] (p.outline_stack.length - 1) := by
  obtain ⟨title,in_head,in_title,in_body,stack,root⟩ := p
  obtain ⟨head,titled,body,folders⟩ := here
  cases stack with
  | nil => exact ⟨⟨head,titled,body,folders⟩,rfl,by simp [pop_folder],rfl⟩
  | cons entry stack =>
    have rest : ∀ entry ∈ stack, entry ≠ [] := fun entry inside => folders entry (List.mem_cons_of_mem _ inside)
    cases entry with
    | nil => exact absurd rfl (folders [] List.mem_cons_self)
    | cons folder children =>
      cases stack with
      | nil =>
        refine ⟨⟨head,titled,body,rest⟩,rfl,?_,rfl⟩
        simp [pop_folder,push_outline,OpmlParser.shown,open_places,places_append]
      | cons outer stack =>
        cases outer with
        | nil => exact absurd rfl (rest [] List.mem_cons_self)
        | cons folder' siblings =>
          refine ⟨⟨head,titled,body,?_⟩,rfl,?_,rfl⟩
          · intro entry inside
            rcases List.mem_cons.mp inside with rfl | later
            · exact List.cons_ne_nil _ _
            · exact rest entry (List.mem_cons_of_mem _ later)
          · simp [pop_folder,push_outline,OpmlParser.shown,open_places,places_append]

theorem Went.trans {q r : OpmlParser} {shows more : List (ℕ × Outline)} {m n : ℕ} (one : Went p q shows m)
    (two : Went q r more n) : Went p r (shows ++ more) n :=
  ⟨two.still,two.title.trans one.title,by rw [two.shown,one.shown,List.append_assoc],two.depth⟩

theorem Open.stay (here : p.Open) : Went p p [] p.outline_stack.length := ⟨here,rfl,by simp,rfl⟩

theorem passive_step (here : p.Open) {e : Event} (passive : e.passive) : p.step (.ok e) = .ok p := by
  cases e <;> simp_all [Event.passive,step,start_tag,empty_tag,end_tag,here.in_head,here.in_title]

/-- The parser over two parts of the events. -/
theorem run_append {p q : OpmlParser} {es es' : List Event} (one : (received es).foldlM step p = .ok q) :
    (received (es ++ es')).foldlM step p = (received es').foldlM step q := by
  rw [received,List.map_append,List.foldlM_append]
  change (List.foldlM step p (received es) >>= fun s => (received es').foldlM step s) = _
  rw [one]
  rfl

theorem run_one {p q : OpmlParser} {e : Event} (one : p.step (.ok e) = .ok q) : (received [e]).foldlM step p = .ok q := by
  rw [received,List.map_singleton,List.foldlM_cons,one]
  rfl

/-- The parser over a body. -/
theorem Open.run (here : p.Open) (ms : List Markup) : ∃ q, (received (events ms)).foldlM step p = .ok q ∧
    Went p q (starts p.outline_stack.length ms) (finish p.outline_stack.length ms) := by
  induction ms using markup_induction generalizing p with
  | nil => exact ⟨p,rfl,by simpa [starts,finish] using here.stay⟩
  | self_closed attributes rest ih =>
    have first := push_went here (outline_of attributes)
    have stepped : p.step (.ok (.Empty "outline" (as_read attributes))) = .ok (p.push_outline (.node (outline_of attributes) [])) := by
      simp [step,empty_tag,here.in_body,parse_attributes,bind,Except.bind]
    obtain ⟨q,later,went⟩ := ih first.still
    rw [first.depth] at went
    refine ⟨q,?_,by simpa [starts,Markup.starts,finish,Markup.finish] using first.trans went⟩
    rw [events,Markup.events,run_append (run_one stepped)]
    exact later
  | element attributes children rest ih ih' =>
    obtain ⟨s,begun,opened⟩ : ∃ s, p.step (.ok (.Start "outline" (as_read attributes))) = .ok s ∧
        Went p s [(p.outline_stack.length,outline_of attributes)]
          (if (outline_of attributes).is_feed then p.outline_stack.length else p.outline_stack.length + 1) := by
      by_cases feed : (outline_of attributes).is_feed
      · refine ⟨p.push_outline (.node (outline_of attributes) []),?_,?_⟩
        · simp [step,start_tag,here.in_body,parse_attributes,bind,Except.bind,feed]
        · rw [if_pos feed]
          exact push_went here _
      · refine ⟨{ p with outline_stack := [.node (outline_of attributes) []] :: p.outline_stack },?_,?_⟩
        · simp [step,start_tag,here.in_body,parse_attributes,bind,Except.bind,feed]
        · rw [if_neg feed]
          exact open_went here _
    obtain ⟨t,inner,below⟩ := ih opened.still
    have ended : t.step (.ok (.End "outline")) = .ok t.pop_folder := by
      simp [step,end_tag,below.still.in_body]
    have closed := pop_went below.still
    obtain ⟨q,later,after⟩ := ih' closed.still
    rw [opened.depth] at below
    rw [closed.depth,below.depth] at after
    refine ⟨q,?_,?_⟩
    · have whole : Markup.events (.Element attributes children) =
          [.Start "outline" (as_read attributes)] ++ (events children ++ [.End "outline"]) := rfl
      have tag : (received (Markup.events (.Element attributes children))).foldlM step p = .ok t.pop_folder := by
        rw [whole,run_append (run_one begun),run_append inner,run_one ended]
      rw [events,run_append tag]
      exact later
    · rw [starts,Markup.starts,finish,Markup.finish]
      rw [below.depth] at closed
      simpa using ((opened.trans below).trans closed).trans after
  | passing event rest ih =>
    obtain ⟨q,later,went⟩ := ih here
    refine ⟨q,?_,by simpa [starts,Markup.starts,finish,Markup.finish] using went⟩
    rw [events,Markup.events,run_append (run_one (passive_step here event.2))]
    exact later

end OpmlParser

/-! ### Documents -/

/-- The events of a document with the given title and body. -/
def document (title : String) (body : List Markup) : List Event :=
  [.Start "opml" [],.Start "head" [],.Start "title" [],.Text (.ok title),.End "title",.End "head",.Start "body" []] ++ events body ++
    [.End "body",.End "opml"]

/-- The rest of a document after the beginning of its body: the outlines are as deep as the stack
    was long. -/
theorem OpmlParser.Open.body {p : OpmlParser} (here : p.Open) (empty : p.outline_stack = []) (rootless : p.root_outlines = [])
    (body : List Markup) : ∃ q, (received (events body ++ [.End "body",.End "opml"])).foldlM OpmlParser.step p = .ok q ∧
      q.title = p.title ∧ places 0 q.root_outlines = starts 0 body := by
  obtain ⟨q,run,went⟩ := here.run body
  rw [empty] at went
  have done : q.outline_stack = [] := by
    have short := finish_le 0 body
    have := went.depth
    exact List.length_eq_zero_iff.mp (by simpa using this.trans_le short)
  have tail : (received [.End "body",.End "opml"]).foldlM OpmlParser.step q = .ok { q with in_body := false } := by
    simp [received,OpmlParser.step,OpmlParser.end_tag,bind,Except.bind,pure,Except.pure]
  refine ⟨{ q with in_body := false },(OpmlParser.run_append run).trans tail,went.title,?_⟩
  have shown := went.shown
  simp only [OpmlParser.shown,done,empty,rootless,open_places,places_nil,List.append_nil,List.nil_append] at shown
  exact shown

/-- A document is parsed to the outlines below their nearest folders iff no outline follows the end
    tag of a feed inside one outermost folder. -/
theorem parse_opml_iff (title : String) (body : List Markup) :
    parse_opml (received (document title body)) = .ok ⟨trimmed title,forest body⟩ ↔ orderly body := by
  have head : (received
      [.Start "opml" [],.Start "head" [],.Start "title" [],.Text (.ok title),.End "title",.End "head",.Start "body" []]).foldlM
        OpmlParser.step OpmlParser.start = .ok ⟨"" ++ title,false,false,true,[],[]⟩ := rfl
  obtain ⟨q,run,titled,placed⟩ := OpmlParser.Open.body (⟨rfl,rfl,rfl,nofun⟩ : OpmlParser.Open ⟨"" ++ title,false,false,true,[],[]⟩)
    rfl rfl body
  have parsed : parse_opml (received (document title body)) = .ok ⟨trimmed title,q.root_outlines⟩ := by
    rw [parse_opml,document,List.append_assoc,OpmlParser.run_append head,run]
    simp [Except.map,titled]
  rw [parsed,← starts_orderly,← placed,places_inj]
  simp

end Pergamon
