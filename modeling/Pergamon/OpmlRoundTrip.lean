import Pergamon.OpmlShape

/-!
Reading back an OPML document that was generated. The XML writer and reader are correct on single
events: a tag is read as it was written if no attribute holds a tab or a line break, a text is read
as pieces and references that spell it, and white space may stand before a tag that follows no text.

A tree whose feeds are leaves is read back with its texts and types made up (`written_read`).
-/
namespace Pergamon
open Fallible OrderedTree

/-- A text that attributes keep: without tabs and line breaks. -/
def KeepsBlanks (s : String) : Prop := ∀ c ∈ s.toList, c ≠ '\t' ∧ c ≠ '\n' ∧ c ≠ '\r'

/-- Pieces of text and references, one after the other, spell a text. -/
inductive Spells : String → List Event → Prop where
  | nothing : Spells "" []
  | piece (s : String) {t : String} {rest : List Event} : Spells t rest → Spells (s ++ t) (.Text (.ok s) :: rest)
  | character (c : Char) (name : Except String String) {t : String} {rest : List Event} :
    Spells t rest → Spells (String.singleton c ++ t) (.GeneralRef (.ok (some c)) name :: rest)
  | entity {name s : String} {t : String} {rest : List Event} : resolve_predefined_entity name = some s → Spells t rest →
    Spells (s ++ t) (.GeneralRef (.ok none) (.ok name) :: rest)

/-- An attribute and what is read for it. -/
inductive SameAttribute : Attribute → Attribute → Prop where
  | read (key : String) {value value' : String} : (KeepsBlanks value → value' = value) →
    SameAttribute (.read key value) (.read key value')

/-- A tag and what is read for it. -/
inductive SameTag : Event → Event → Prop where
  | start (name : String) {attributes attributes' : List Attribute} : attributes.Forall₂ SameAttribute attributes' →
    SameTag (.Start name attributes) (.Start name attributes')
  | empty (name : String) {attributes attributes' : List Attribute} : attributes.Forall₂ SameAttribute attributes' →
    SameTag (.Empty name attributes) (.Empty name attributes')
  | stop (name : String) : SameTag (.End name) (.End name)
  | other : SameTag .Other .Other

/-- White space before a tag. -/
def Indent (es : List Event) : Prop :=
  es = [] ∨ ∃ blank : String, (∀ c ∈ blank.toList, SmartFilter.is_whitespace c) ∧ es = [.Text (.ok blank)]

/-- Events that were written and events that are read for them. -/
inductive Rereads : List Event → List Event → Prop where
  | done : Rereads [] []
  | tag {e e' : Event} {written read indent : List Event} : Indent indent → SameTag e e' → Rereads written read →
    Rereads (e :: written) (indent ++ e' :: read)
  | text {t : String} {pieces : List Event} {e e' : Event} {written read : List Event} : Spells t pieces → SameTag e e' →
    Rereads written read → Rereads (.Text (.ok t) :: e :: written) (pieces ++ e' :: read)

/-- The texts of an outline keep through attributes. -/
structure Outline.Keeps (o : Outline) : Prop where
  text : KeepsBlanks o.text
  title : ∀ t ∈ o.title, KeepsBlanks t
  xml_url : ∀ u ∈ o.xml_url, KeepsBlanks u
  html_url : ∀ u ∈ o.html_url, KeepsBlanks u
  feed_type : ∀ t ∈ o.feed_type, KeepsBlanks t

/-- An outline as it is written: an empty text is made up from the title, and a feed has a type and
    a folder has none. -/
def Outline.written (o : Outline) : Outline :=
  { o.with_text with feed_type := o.xml_url.map (fun _ => o.feed_type.getD "rss") }

/-! ### Single events -/

theorem sameAttribute_eq {a a' : Attribute} {key value : String} (keeps : KeepsBlanks value) (form : a = .read key value)
    (same : SameAttribute a a') : a' = a := by
  cases same with
  | read key' kept =>
    cases form
    rw [kept keeps]

theorem attributes_eq {attributes : List (String × String)} {read : List Attribute}
    (keeps : ∀ a ∈ attributes, KeepsBlanks a.2) (same : (as_read attributes).Forall₂ SameAttribute read) :
    read = as_read attributes := by
  induction attributes generalizing read with
  | nil =>
    cases same
    rfl
  | cons a attributes ih =>
    cases same with
    | cons first rest =>
      rw [sameAttribute_eq (keeps a List.mem_cons_self) rfl first,
        ih (fun b inside => keeps b (List.mem_cons_of_mem _ inside)) rest]
      rfl

/-- A tag whose attributes keep. -/
def Event.keeps : Event → Prop
  | .Start _ attributes => ∃ as, attributes = as_read as ∧ ∀ a ∈ as, KeepsBlanks a.2
  | .Empty _ attributes => ∃ as, attributes = as_read as ∧ ∀ a ∈ as, KeepsBlanks a.2
  | .End _ => True
  | .Other => True
  | _ => False

theorem sameTag_eq {e e' : Event} (keeps : e.keeps) (same : SameTag e e') : e' = e := by
  cases same with
  | start name attributes =>
    obtain ⟨as,rfl,kept⟩ := keeps
    rw [attributes_eq kept attributes]
  | empty name attributes =>
    obtain ⟨as,rfl,kept⟩ := keeps
    rw [attributes_eq kept attributes]
  | stop name => rfl
  | other => rfl

theorem keeps_attributes {o : Outline} (keeps : o.Keeps) : ∀ a ∈ o.attributes, KeepsBlanks a.2 := by
  obtain ⟨text,title,xml_url,html_url,feed_type⟩ := keeps
  obtain ⟨t,ti,u,h,f⟩ := o
  have rss : KeepsBlanks "rss" := by unfold KeepsBlanks; simp
  intro a inside
  simp only [Outline.attributes,List.mem_append,List.mem_singleton,List.mem_map,List.mem_flatMap,Option.mem_toList] at inside
  rcases inside with ((rfl | ⟨_,there,rfl⟩) | ⟨url,there,inside⟩) | ⟨_,there,rfl⟩
  · exact text
  · exact title _ there
  · rcases List.mem_cons.mp inside with rfl | last
    · cases f with
      | none => exact rss
      | some f => exact feed_type f rfl
    · rw [List.mem_singleton.mp last]
      exact xml_url _ there
  · exact html_url _ there

/-! ### The parser over what is read -/

namespace OpmlParser
variable {p : OpmlParser}

theorem indent_run {indent : List Event} (blank : Indent indent) (untitled : p.in_title = false) :
    (received indent).foldlM step p = .ok p := by
  rcases blank with rfl | ⟨_,-,rfl⟩
  · rfl
  · exact run_one (by simp [step,untitled])

/-- Pieces of a title add up to it. -/
theorem spells_run {t : String} {pieces : List Event} (spells : Spells t pieces) (titled : p.in_title = true) :
    (received pieces).foldlM step p = .ok { p with title := p.title ++ t } := by
  induction spells generalizing p with
  | nothing => simp [received,pure,Except.pure]
  | piece s later ih =>
    have first : p.step (.ok (.Text (.ok s))) = .ok { p with title := p.title ++ s } := by simp [step,titled]
    rw [← List.singleton_append,run_append (run_one first),@ih { p with title := p.title ++ s } titled,String.append_assoc]
  | character c name later ih =>
    have first : p.step (.ok (.GeneralRef (.ok (some c)) name)) = .ok { p with title := p.title ++ String.singleton c } := by
      simp [step,titled,resolve,Except.map]
    rw [← List.singleton_append,run_append (run_one first),@ih { p with title := p.title ++ String.singleton c } titled,
      String.append_assoc]
  | entity known later ih =>
    rename_i name s t rest
    have first : p.step (.ok (.GeneralRef (.ok none) (.ok name))) = .ok { p with title := p.title ++ s } := by
      simp [step,titled,resolve,known,Except.map]
    rw [← List.singleton_append,run_append (run_one first),@ih { p with title := p.title ++ s } titled,String.append_assoc]

/-- Only its own tag begins the title. -/
theorem untitled_step {q : OpmlParser} {e : Event} (untitled : p.in_title = false) (other : ∀ attributes, e ≠ .Start "title" attributes)
    (one : p.step (.ok e) = .ok q) : q.in_title = false := by
  have push (p : OpmlParser) (o : OpmlOutline) : (p.push_outline o).in_title = p.in_title := by
    unfold push_outline
    split <;> rfl
  have pop : p.pop_folder.in_title = p.in_title := by
    unfold pop_folder
    split
    · exact push _ _
    · rfl
    · rfl
  cases e with
  | Start name attributes =>
    have named : name ≠ "title" := fun same => other attributes (same ▸ rfl)
    simp only [step,start_tag,named,false_and,if_false] at one
    split_ifs at one
    · cases one
      exact untitled
    · cases one
      exact untitled
    · obtain ⟨o,-,made⟩ := bind_ok.mp one
      cases made
      split_ifs
      · exact (push _ _).trans untitled
      · exact untitled
    · cases one
      exact untitled
  | Empty name attributes =>
    simp only [step,empty_tag] at one
    split_ifs at one
    · obtain ⟨o,-,made⟩ := bind_ok.mp one
      cases made
      exact (push _ _).trans untitled
    · cases one
      exact untitled
  | End name =>
    simp only [step,end_tag] at one
    cases one
    split_ifs
    · exact untitled
    · rfl
    · exact untitled
    · exact pop.trans untitled
    · exact untitled
  | Text decoded =>
    simp only [step,untitled] at one
    cases one
    exact untitled
  | GeneralRef char_ref name =>
    simp only [step,untitled] at one
    cases one
    exact untitled
  | Other =>
    cases one
    exact untitled

end OpmlParser

/-- A tag that was written, in what is read. -/
theorem rereads_tag {e : Event} {written read : List Event} (keeps : e.keeps) (rereads : Rereads (e :: written) read) :
    ∃ indent rest, read = indent ++ e :: rest ∧ Indent indent ∧ Rereads written rest := by
  cases rereads with
  | tag blank same later => exact ⟨_,_,by rw [sameTag_eq keeps same],blank,later⟩
  | text spells same later => exact absurd keeps (by simp [Event.keeps])

theorem rereads_run {e : Event} {written read : List Event} {p q : OpmlParser} (untitled : p.in_title = false) (keeps : e.keeps)
    (one : p.step (.ok e) = .ok q) (rereads : Rereads (e :: written) read) :
    ∃ rest, Rereads written rest ∧
      (received read).foldlM OpmlParser.step p = (received rest).foldlM OpmlParser.step q := by
  obtain ⟨indent,rest,rfl,blank,later⟩ := rereads_tag keeps rereads
  refine ⟨rest,later,?_⟩
  rw [OpmlParser.run_append (OpmlParser.indent_run blank untitled),← List.singleton_append,
    OpmlParser.run_append (OpmlParser.run_one one)]

/-- Tags after the title are taken as they were written. -/
theorem rereads_runs {written read : List Event} {p q : OpmlParser} (untitled : p.in_title = false)
    (keeps : ∀ e ∈ written, e.keeps ∧ ∀ attributes, e ≠ .Start "title" attributes) (rereads : Rereads written read)
    (run : (received written).foldlM OpmlParser.step p = .ok q) : (received read).foldlM OpmlParser.step p = .ok q := by
  induction written generalizing p read with
  | nil =>
    cases rereads
    exact run
  | cons e written ih =>
    obtain ⟨s,one,later⟩ : ∃ s, p.step (.ok e) = .ok s ∧ (received written).foldlM OpmlParser.step s = .ok q := by
      rw [received,List.map_cons,List.foldlM_cons] at run
      exact bind_ok.mp run
    obtain ⟨rest,more,whole⟩ := rereads_run untitled (keeps e List.mem_cons_self).1 one rereads
    rw [whole]
    exact ih (OpmlParser.untitled_step untitled (keeps e List.mem_cons_self).2 one)
      (fun e' inside => keeps e' (List.mem_cons_of_mem _ inside)) more later

/-! ### Trees -/

mutual
/-- The part that is written for an outline. -/
def markup_of : OpmlOutline → Markup
  | .node o children => if children.isEmpty then .SelfClosed o.attributes else .Element o.attributes (markup children)
/-- The body that is written for outlines. -/
def markup : List OpmlOutline → List Markup
  | [] => []
  | outline :: rest => markup_of outline :: markup rest
end

theorem events_markup (tree : List OpmlOutline) : events (markup tree) = write_outlines tree := by
  induction tree using forest_induction with
  | nil => simp [markup,events,write_outlines]
  | cons o children rest ih ih' =>
    rw [markup,events,ih',markup_of,write_outlines,write_outline]
    split_ifs
    · simp [Markup.events]
    · simp [Markup.events,ih]

theorem outline_of_attributes (o : Outline) : outline_of o.attributes = o.written := by
  obtain ⟨text,title,xml_url,html_url,feed_type⟩ := o
  cases title <;> cases xml_url <;> cases html_url <;>
    simp [outline_of,Outline.attributes,Outline.put,Outline.written,Outline.with_text] <;> split_ifs <;> rfl

theorem is_feed_written (o : Outline) : o.written.is_feed = o.is_feed := by
  unfold Outline.is_feed Outline.written Outline.with_text
  split_ifs <;> rfl

section
variable {tree : List OpmlOutline} (leaves : LeavesAt (fun o => o.is_feed = true) tree)
include leaves

theorem forest_markup : forest (markup tree) = relabel Outline.written tree := by
  induction tree using forest_induction with
  | nil => simp [markup,forest]
  | cons o children rest ih ih' =>
    obtain ⟨leaf,below,after⟩ := leavesAt_cons.mp leaves
    rw [markup,forest,ih' after,relabel_cons,markup_of]
    split_ifs with none
    · rw [List.isEmpty_iff.mp none,Markup.forest,outline_of_attributes]
      simp
    · have folder : o.is_feed = false := by
        by_contra feed
        exact none (List.isEmpty_iff.mpr (leaf (by simpa using feed)))
      rw [Markup.forest,outline_of_attributes,is_feed_written,folder,if_neg (by simp),ih below]
      rfl

/-- The feeds of a written tree have no end tags. -/
theorem closes_feed_markup : closes_feed (markup tree) = false := by
  induction tree using forest_induction with
  | nil => simp [markup,closes_feed]
  | cons o children rest ih ih' =>
    obtain ⟨leaf,below,after⟩ := leavesAt_cons.mp leaves
    rw [markup,closes_feed,ih' after,Bool.or_false,markup_of]
    split_ifs with none
    · rfl
    · have folder : o.is_feed = false := by
        by_contra feed
        exact none (List.isEmpty_iff.mpr (leaf (by simpa using feed)))
      rw [Markup.closes_feed,outline_of_attributes,is_feed_written,folder,ih below]
      rfl

end

theorem straight_of_unclosed {ms : List Markup} (without : closes_feed ms = false) : straight ms := by
  induction ms using markup_induction with
  | nil => rw [straight]
  | self_closed attributes rest ih =>
    simp only [closes_feed,Markup.closes_feed,Bool.false_or] at without
    simp [straight,Markup.straight,Markup.closes_feed,ih without]
  | element attributes children rest ih ih' =>
    simp only [closes_feed,Markup.closes_feed,Bool.or_eq_false_iff] at without
    obtain ⟨⟨folder,below⟩,after⟩ := without
    simp [straight,Markup.straight,Markup.closes_feed,folder,below,ih below,ih' after]
  | passing event rest ih =>
    simp only [closes_feed,Markup.closes_feed,Bool.false_or] at without
    simp [straight,Markup.straight,Markup.closes_feed,ih without]

theorem orderly_of_unclosed {ms : List Markup} (without : closes_feed ms = false) : orderly ms := by
  induction ms with
  | nil => rw [orderly]
  | cons m ms ih =>
    simp only [closes_feed,Bool.or_eq_false_iff] at without
    obtain ⟨first,after⟩ := without
    rw [orderly,ih after,Bool.and_true]
    cases m with
    | SelfClosed attributes => rfl
    | Element attributes children =>
      simp only [Markup.closes_feed,Bool.or_eq_false_iff] at first
      rw [Markup.orderly,first.1,if_neg (by simp)]
      exact straight_of_unclosed first.2
    | Passing event => rfl

/-- The tags of a written tree keep through the reader. -/
theorem keeps_written {tree : List OpmlOutline} (keeps : ∀ o ∈ labels tree, o.Keeps) :
    ∀ e ∈ write_outlines tree, e.keeps ∧ ∀ attributes, e ≠ .Start "title" attributes := by
  induction tree using forest_induction with
  | nil => simp [write_outlines]
  | cons o children rest ih ih' =>
    rw [labels_cons] at keeps
    have here := keeps_attributes (keeps o (by simp))
    have below := ih (fun o' inside => keeps o' (by simp [inside]))
    have after := ih' (fun o' inside => keeps o' (by simp [inside]))
    intro e inside
    rw [write_outlines,write_outline] at inside
    rcases List.mem_append.mp inside with first | later
    · split_ifs at first
      · rw [List.mem_singleton.mp first]
        exact ⟨⟨_,rfl,here⟩,nofun⟩
      · rcases List.mem_cons.mp first with rfl | first
        · exact ⟨⟨_,rfl,here⟩,by simp⟩
        · rcases List.mem_append.mp first with within | last
          · exact below e within
          · rw [List.mem_singleton.mp last]
            exact ⟨trivial,nofun⟩
    · exact after e later

/-- The beginning of a document, up to its body, is read with the title. -/
theorem rereads_head {title : String} {body read : List Event}
    (rereads : Rereads ([.Other,.Start "opml" (as_read [("version","2.0")]),.Start "head" [],.Start "title" [],
      .Text (.ok title),.End "title",.End "head",.Start "body" []] ++ body) read) :
    ∃ rest, Rereads body rest ∧ (received read).foldlM OpmlParser.step OpmlParser.start =
      (received rest).foldlM OpmlParser.step ⟨"" ++ title,false,false,true,[],[]⟩ := by
  have bare (name : String) : (Event.Start name []).keeps := ⟨[],rfl,nofun⟩
  have version : (Event.Start "opml" (as_read [("version","2.0")])).keeps := by
    refine ⟨_,rfl,?_⟩
    simp only [List.mem_singleton,forall_eq]
    unfold KeepsBlanks
    simp
  obtain ⟨_,rereads,declared⟩ := @rereads_run .Other _ _ OpmlParser.start OpmlParser.start rfl trivial rfl rereads
  obtain ⟨_,rereads,opened⟩ := @rereads_run _ _ _ OpmlParser.start OpmlParser.start rfl version rfl rereads
  obtain ⟨_,rereads,headed⟩ := @rereads_run _ _ _ OpmlParser.start ⟨"",true,false,false,[],[]⟩ rfl (bare "head") rfl rereads
  obtain ⟨_,rereads,titled⟩ := @rereads_run _ _ _ ⟨"",true,false,false,[],[]⟩ ⟨"",true,true,false,[],[]⟩ rfl (bare "title") rfl rereads
  rw [declared,opened,headed,titled]
  cases rereads with
  | tag blank same later => cases same
  | text spells same rereads =>
    cases same
    obtain ⟨_,rereads,left⟩ := @rereads_run (.End "head") _ _ ⟨"" ++ title,true,false,false,[],[]⟩ ⟨"" ++ title,false,false,false,[],[]⟩
      rfl trivial rfl rereads
    obtain ⟨rest,rereads,inside⟩ := @rereads_run _ _ _ ⟨"" ++ title,false,false,false,[],[]⟩ ⟨"" ++ title,false,false,true,[],[]⟩
      rfl (bare "body") rfl rereads
    refine ⟨rest,rereads,?_⟩
    rw [OpmlParser.run_append (OpmlParser.spells_run spells rfl),← List.singleton_append,
      OpmlParser.run_append (OpmlParser.run_one rfl)]
    exact left.trans inside

/-- A tree whose feeds are leaves is read back as it is written. -/
theorem written_read {title : String} {tree : List OpmlOutline} {read : List Event}
    (leaves : LeavesAt (fun o => o.is_feed = true) tree) (keeps : ∀ o ∈ labels tree, o.Keeps)
    (rereads : Rereads (generate_opml title tree) read) :
    parse_opml (received read) = .ok ⟨trimmed title,relabel Outline.written tree⟩ := by
  rw [generate_opml,List.append_assoc] at rereads
  obtain ⟨rest,rereads,head⟩ := rereads_head rereads
  obtain ⟨q,run,titled,placed⟩ := OpmlParser.Open.body (⟨rfl,rfl,rfl,nofun⟩ : OpmlParser.Open ⟨"" ++ title,false,false,true,[],[]⟩)
    rfl rfl (markup tree)
  rw [events_markup] at run
  have kept : ∀ e ∈ write_outlines tree ++ [.End "body",.End "opml"], e.keeps ∧ ∀ attributes, e ≠ .Start "title" attributes := by
    intro e inside
    rcases List.mem_append.mp inside with within | last
    · exact keeps_written keeps e within
    · simp only [List.mem_cons,List.not_mem_nil,or_false] at last
      rcases last with rfl | rfl
      · exact ⟨trivial,nofun⟩
      · exact ⟨trivial,nofun⟩
  have whole := rereads_runs rfl kept rereads run
  have outlines : q.root_outlines = relabel Outline.written tree := by
    have orderly := orderly_of_unclosed (closes_feed_markup leaves)
    rw [← starts_orderly,← placed,places_inj,forest_markup leaves] at orderly
    exact orderly
  rw [parse_opml,head,whole]
  simp [Except.map,titled,outlines]

/-- A body in which no outline follows the end tag of a feed inside one outermost folder is parsed to
    its outlines below their nearest folders, and a tree whose feeds are leaves is read back as it is
    written. -/
theorem opml_structure (title : String) :
    (∀ body : List Markup, orderly body → parse_opml (received (document title body)) = .ok ⟨trimmed title,forest body⟩) ∧
      ∀ (tree : List OpmlOutline) (read : List Event), LeavesAt (fun o => o.is_feed = true) tree →
        (∀ o ∈ labels tree, o.is_feed → o.feed_type.isSome) → (∀ o ∈ labels tree, o.Keeps) →
          Rereads (generate_opml title tree) read →
            parse_opml (received read) = .ok ⟨trimmed title,relabel Outline.written tree⟩ :=
  ⟨fun body => (parse_opml_iff title body).mpr,fun _ _ leaves _ keeps rereads => written_read leaves keeps rereads⟩

/-! ### A folder with two feeds, and a feed with a title only -/

def folder_attributes : List (String × String) := [("text","News")]

def feed_attributes (url : String) : List (String × String) := [("text","A"),("type","rss"),("xmlUrl",url)]

/-- In a folder, a feed with an end tag and a feed that closes itself. -/
def two_feeds : List Markup :=
  [.Element folder_attributes [.Element (feed_attributes "https://a") [],.SelfClosed (feed_attributes "https://b")]]

/-- In a folder, the two feeds the other way around. -/
def two_feeds' : List Markup :=
  [.Element folder_attributes [.SelfClosed (feed_attributes "https://b"),.Element (feed_attributes "https://a") []]]

/-- A feed with a text or a title. -/
def one_feed (text : String) (title : Option String) : List OpmlOutline :=
  [.node ⟨text,title,some "https://a",none,some "rss"⟩ []]

/-- The reader may hand out the events of a document with one feed as they were written. -/
theorem rereads_one_feed (text : String) (title : Option String) :
    Rereads (generate_opml "Feeds" (one_feed text title)) (generate_opml "Feeds" (one_feed text title)) := by
  have untouched : Indent [] := Or.inl rfl
  have same (attributes : List (String × String)) : (as_read attributes).Forall₂ SameAttribute (as_read attributes) := by
    induction attributes with
    | nil => exact List.Forall₂.nil
    | cons a attributes ih => exact List.Forall₂.cons (SameAttribute.read a.1 (fun _ => rfl)) ih
  have spelled : Spells "Feeds" [.Text (.ok "Feeds")] := Spells.piece "Feeds" Spells.nothing
  have written : generate_opml "Feeds" (one_feed text title) =
      [.Other,.Start "opml" (as_read [("version","2.0")]),.Start "head" [],.Start "title" [],.Text (.ok "Feeds"),.End "title",
        .End "head",.Start "body" [],.Empty "outline" (as_read (Outline.attributes ⟨text,title,some "https://a",none,some "rss"⟩)),
        .End "body",.End "opml"] := by
    simp [generate_opml,one_feed,write_outlines,write_outline]
  rw [written]
  refine @Rereads.tag _ _ _ _ [] untouched .other ?_
  refine @Rereads.tag _ _ _ _ [] untouched (.start "opml" (same _)) ?_
  refine @Rereads.tag _ _ _ _ [] untouched (.start "head" .nil) ?_
  refine @Rereads.tag _ _ _ _ [] untouched (.start "title" .nil) ?_
  refine @Rereads.text _ [_] _ _ _ _ spelled (.stop "title") ?_
  refine @Rereads.tag _ _ _ _ [] untouched (.stop "head") ?_
  refine @Rereads.tag _ _ _ _ [] untouched (.start "body" .nil) ?_
  refine @Rereads.tag _ _ _ _ [] untouched (.empty "outline" (same _)) ?_
  refine @Rereads.tag _ _ _ _ [] untouched (.stop "body") ?_
  exact @Rereads.tag _ _ _ _ [] untouched (.stop "opml") .done

theorem leaves_one_feed (text : String) (title : Option String) :
    LeavesAt (fun o => o.is_feed = true) (one_feed text title) := by
  rw [one_feed,leavesAt_cons]
  exact ⟨fun _ => rfl,by rw [LeavesAt]; trivial,by rw [LeavesAt]; trivial⟩

theorem keeps_one_feed {text : String} {title : Option String} (keeps : KeepsBlanks text) (titled : ∀ t ∈ title, KeepsBlanks t) :
    ∀ o ∈ labels (one_feed text title), (o.is_feed → o.feed_type.isSome) ∧ o.Keeps := by
  intro o inside
  have only : o = ⟨text,title,some "https://a",none,some "rss"⟩ := by simpa [one_feed,labels] using inside
  subst only
  refine ⟨fun _ => rfl,keeps,titled,?_,by simp,?_⟩
  · simp only [Option.mem_some_iff,forall_eq']
    unfold KeepsBlanks
    simp
  · simp only [Option.mem_some_iff,forall_eq']
    unfold KeepsBlanks
    simp

theorem keepsBlanks_a : KeepsBlanks "A" := by
  unfold KeepsBlanks
  simp

theorem opml_structure_two_feeds :
    parse_opml (received (document "Feeds" two_feeds')) = .ok ⟨trimmed "Feeds",forest two_feeds'⟩ ∧
      parse_opml (received (generate_opml "Feeds" (one_feed "A" none))) = .ok ⟨trimmed "Feeds",relabel Outline.written (one_feed "A" none)⟩ :=
  have keeps := @keeps_one_feed "A" none keepsBlanks_a nofun
  ⟨(opml_structure "Feeds").1 two_feeds' (by decide),(opml_structure "Feeds").2 (one_feed "A" none) _ (leaves_one_feed _ _)
    (fun o inside => (keeps o inside).1) (fun o inside => (keeps o inside).2) (rereads_one_feed _ _)⟩

/-- The second feed is taken out of the folder, and the feed with a title only comes back with a
    text. -/
theorem opml_structure_fails :
    parse_opml (received (document "Feeds" two_feeds)) ≠ .ok ⟨trimmed "Feeds",forest two_feeds⟩ ∧
      LeavesAt (fun o => o.is_feed = true) (one_feed "" (some "A")) ∧
      (∀ o ∈ labels (one_feed "" (some "A")), (o.is_feed → o.feed_type.isSome) ∧ o.Keeps) ∧
      Rereads (generate_opml "Feeds" (one_feed "" (some "A"))) (generate_opml "Feeds" (one_feed "" (some "A"))) ∧
      parse_opml (received (generate_opml "Feeds" (one_feed "" (some "A")))) ≠ .ok ⟨trimmed "Feeds",one_feed "" (some "A")⟩ := by
  have keeps := @keeps_one_feed "" (some "A") nofun (by rintro _ ⟨⟩; exact keepsBlanks_a)
  refine ⟨?_,leaves_one_feed _ _,keeps,rereads_one_feed _ _,?_⟩
  · rw [Ne,parse_opml_iff]
    decide
  · rw [written_read (leaves_one_feed _ _) (fun o inside => (keeps o inside).2) (rereads_one_feed _ _)]
    intro same
    have outlines := congrArg (fun d : OpmlDocument => labels d.outlines) (Except.ok.inj same)
    simp [one_feed,labels,Outline.written,Outline.with_text] at outlines

end Pergamon
