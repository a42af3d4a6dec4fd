import Pergamon.Fallible
import Pergamon.OrderedTree
import Pergamon.Texts

/-!
OPML subscription lists. The parser takes the events of the XML reader one by one: an outline
without a feed url is a folder, which is kept on a stack, before its children, until an end tag
takes it off. The end tag of a feed takes a folder off as well, so what follows it inside the same
outermost folder ends up too high (`parse_opml_iff`).
-/
namespace Pergamon
open Fallible OrderedTree

/-! ### Documents -/

/-- The attributes of an `<outline>` element. With a feed url it is a subscription, and a folder
    otherwise. -/
structure Outline where
  text : String
  title : Option String
  xml_url : Option String
  html_url : Option String
  feed_type : Option String
  deriving DecidableEq

/-- An `<outline>` element with its children. -/
abbrev OpmlOutline := OrderedTree.Tree Outline

def Outline.is_feed (o : Outline) : Bool := o.xml_url.isSome

/-- The best display name: the title if it is set, or else the text. -/
def Outline.display_name (o : Outline) : String := o.title.getD o.text

structure OpmlDocument where
  title : String
  outlines : List OpmlOutline

inductive FeedError where
  | Opml (message : String)
  deriving DecidableEq

/-! ### Parsing -/

/-- An attribute, as the reader hands it out. -/
inductive Attribute where
  | read (key value : String)
  | malformed (err : String)
  | undecodable (err : String)

/-- An event of the reader: tags, text, a reference to a character or an entity in text, and the
    rest (comments, declarations). -/
inductive Event where
  | Start (name : String) (attributes : List Attribute)
  | Empty (name : String) (attributes : List Attribute)
  | End (name : String)
  | Text (decoded : Except String String)
  | GeneralRef (char_ref : Except String (Option Char)) (name : Except String String)
  | Other

/-- The entities of XML itself. -/
def resolve_predefined_entity : String → Option String
  | "lt" => some "<"
  | "gt" => some ">"
  | "amp" => some "&"
  | "apos" => some "'"
  | "quot" => some "\""
  | _ => none

def Outline.take_attribute (o : Outline) : Attribute → Except FeedError Outline
  | .malformed err => .error (.Opml ("invalid outline attribute: " ++ err))
  | .undecodable err => .error (.Opml ("invalid attribute value: " ++ err))
  | .read "text" value => .ok { o with text := value }
  | .read "title" value => .ok { o with title := some value }
  | .read "xmlUrl" value => .ok { o with xml_url := some value }
  | .read "htmlUrl" value => .ok { o with html_url := some value }
  | .read "type" value => .ok { o with feed_type := some value }
  | .read _ _ => .ok o

/-- An empty text falls back to the title. -/
def Outline.with_text (o : Outline) : Outline := if o.text = "" then { o with text := o.title.getD "" } else o

/-- Extract the attributes of an outline from its tag. -/
def parse_outline_attrs (attributes : List Attribute) : Except FeedError Outline :=
  (attributes.foldlM Outline.take_attribute ⟨"",none,none,none,none⟩).map Outline.with_text

/-- The parser between two events. The stack has the innermost folder first; each entry is a folder
    without children, followed by the children that it has so far. -/
structure OpmlParser where
  title : String
  in_head : Bool
  in_title : Bool
  in_body : Bool
  outline_stack : List (List OpmlOutline)
  root_outlines : List OpmlOutline

namespace OpmlParser

def start : OpmlParser := ⟨"",false,false,false,[],[]⟩

/-- Push a completed outline onto the innermost folder or the root list. -/
def push_outline (p : OpmlParser) (outline : OpmlOutline) : OpmlParser :=
  match p.outline_stack with
  | children :: stack => { p with outline_stack := (children ++ [outline]) :: stack }
  | [] => { p with root_outlines := p.root_outlines ++ [outline] }

/-- Take the innermost folder from the stack and push it, completed. -/
def pop_folder (p : OpmlParser) : OpmlParser :=
  match p.outline_stack with
  | (folder :: children) :: stack => { p with outline_stack := stack }.push_outline (.node folder.label children)
  | [] :: stack => { p with outline_stack := stack }
  | [] => p

def start_tag (p : OpmlParser) (name : String) (attributes : List Attribute) : Except FeedError OpmlParser :=
  if name = "head" then .ok { p with in_head := true }
  else if name = "title" ∧ p.in_head then .ok { p with in_title := true }
  else if name = "body" then .ok { p with in_body := true }
  else if name = "outline" ∧ p.in_body then do
    let outline ← parse_outline_attrs attributes
    .ok (if outline.is_feed then p.push_outline (.node outline [])
      else { p with outline_stack := [.node outline []] :: p.outline_stack })
  else .ok p

def empty_tag (p : OpmlParser) (name : String) (attributes : List Attribute) : Except FeedError OpmlParser :=
  if name = "outline" ∧ p.in_body then do
    let outline ← parse_outline_attrs attributes
    .ok (p.push_outline (.node outline []))
  else .ok p

def end_tag (p : OpmlParser) (name : String) : OpmlParser :=
  if name = "head" then { p with in_head := false }
  else if name = "title" ∧ p.in_head then { p with in_title := false }
  else if name = "body" then { p with in_body := false }
  else if name = "outline" ∧ p.in_body then p.pop_folder
  else p

/-- The text of a reference: a character, or an entity of XML itself. -/
def resolve (char_ref : Except String (Option Char)) (name : Except String String) : Except FeedError String :=
  match char_ref with
  | .error err => .error (.Opml ("invalid character reference: " ++ err))
  | .ok (some c) => .ok (String.singleton c)
  | .ok none =>
    match name with
    | .error err => .error (.Opml ("invalid entity reference: " ++ err))
    | .ok name =>
      match resolve_predefined_entity name with
      | some resolved => .ok resolved
      | none => .error (.Opml ("unknown entity: &" ++ name ++ ";"))

/-- Take one event of the reader. -/
def step (p : OpmlParser) : Except String Event → Except FeedError OpmlParser
  | .error err => .error (.Opml ("XML parse error: " ++ err))
  | .ok (.Start name attributes) => p.start_tag name attributes
  | .ok (.Empty name attributes) => p.empty_tag name attributes
  | .ok (.End name) => .ok (p.end_tag name)
  | .ok (.Text decoded) =>
    if p.in_title then
      match decoded with
      | .error err => .error (.Opml ("invalid title text: " ++ err))
      | .ok fragment => .ok { p with title := p.title ++ fragment }
    else .ok p
  | .ok (.GeneralRef char_ref name) =>
    if p.in_title then (resolve char_ref name).map (fun text => { p with title := p.title ++ text })
    else .ok p
  | .ok .Other => .ok p

end OpmlParser

/-- Events that are all read without an error. -/
def received (es : List Event) : List (Except String Event) := es.map .ok

/-- Parse the events of an OPML document, up to the end of the file. -/
def parse_opml (events : List (Except String Event)) : Except FeedError OpmlDocument :=
  (events.foldlM OpmlParser.step OpmlParser.start).map (fun p => ⟨trimmed p.title,p.root_outlines⟩)

/-! ### Generation -/

/-- The attributes that are written for an outline. -/
def Outline.attributes (o : Outline) : List (String × String) :=
  [("text",o.text)] ++ o.title.toList.map (fun t => ("title",t)) ++
    o.xml_url.toList.flatMap (fun u => [("type",o.feed_type.getD "rss"),("xmlUrl",u)]) ++
    o.html_url.toList.map (fun u => ("htmlUrl",u))

def as_read (attributes : List (String × String)) : List Attribute := attributes.map (fun a => .read a.1 a.2)

mutual
/-- Write a single outline element. -/
def write_outline : OpmlOutline → List Event
  | .node o children =>
    if children.isEmpty then [.Empty "outline" (as_read o.attributes)]
    else .Start "outline" (as_read o.attributes) :: (write_outlines children ++ [.End "outline"])
/-- Write outline elements one after the other. -/
def write_outlines : List OpmlOutline → List Event
  | [] => []
  | outline :: rest => write_outline outline ++ write_outlines rest
end

/-- The events of an OPML document. -/
def generate_opml (title : String) (outlines : List OpmlOutline) : List Event :=
  [.Other,.Start "opml" (as_read [("version","2.0")]),.Start "head" [],.Start "title" [],.Text (.ok title),.End "title",
    .End "head",.Start "body" []] ++ write_outlines outlines ++ [.End "body",.End "opml"]

end Pergamon
