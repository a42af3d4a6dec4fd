import Pergamon.Legible
import Pergamon.Replay

/-!
Whether a library survives its baseline: a device that has nothing, and applies what a
baseline placed in the outbox, ends with the library iff the library is one that the changes
can carry (`Rebuildable`). What a highlight's change leaves out of its shell, a feed in a
folder, a schedule that is not that of the logs, and rows that refer to later ones do not
come through.
-/
namespace Pergamon
open Fallible Replica

/-! ### Replaying the sections -/

/-- A device that has nothing. -/
def vacant (now : String) : Replica := { Replica.empty with now := now }

section
variable [Sqlite] [Scheduler] {lib : Replica} {now : String} {bodies : List ChangeBody} {part : EntityType → List String}

omit [Sqlite] [Scheduler] in
theorem row_vacant (t : TableName) (id : String) : (vacant now).row t id = none := by
  simp [vacant,row,Replica.empty]

theorem rebuilt_vacant (lib : Replica) (now : String) : Rebuilt lib now [] (vacant now) := by
  have nothing (t : TableName) (id : String) : rebuilt_row lib now [] t id = none := by
    cases t <;> simp [rebuilt_row,rebuilt_item,kept_row]
  refine ⟨fun t id _ => ?_,fun id => ?_,fun _ _ => rfl,fun _ _ => rfl,?_,?_,rfl⟩
  · rw [row_vacant,nothing]
  · rw [row_vacant,nothing]
    exact .none
  · simp [vacant,Replica.empty]
  · simp [vacant,Replica.empty]

/-- Changes of sections are replayed iff each follows what came before it, and then the
    state holds what was sent. -/
theorem replays (sections : bodies.map ChangeBody.entry = Sections.all baseline_order part)
    (distinct : ∀ ty, (part ty).Nodup) (sends : ∀ b ∈ bodies, Sends lib b.entry b) (sound : Sound lib) :
    ((∃ r', bodies.foldlM apply_change (vacant now) = .ok r') ↔
      ∀ done entry rest, done ++ entry :: rest = Sections.all baseline_order part → Applicable lib done entry) ∧
    ∀ r', bodies.foldlM apply_change (vacant now) = .ok r' → Rebuilt lib now (Sections.all baseline_order part) r' := by
  have once : (Sections.all baseline_order part).Nodup :=
    Sections.nodup_all baseline_order_nodup (fun ty _ => distinct ty)
  have run := foldlM_done (fun done r => Rebuilt lib now (done.map ChangeBody.entry) r)
    (fun done b => Applicable lib (done.map ChangeBody.entry) b.entry) (f := apply_change) (l := bodies) (s := vacant now)
    (fun done b rest r split rebuilt => by
      have split' : done.map ChangeBody.entry ++ b.entry :: rest.map ChangeBody.entry =
          Sections.all baseline_order part := by
        rw [← sections,← split,List.map_append,List.map_cons]
      have inside : b ∈ bodies := by simp [← split]
      have before {ty : EntityType} {id : String} : (ty,id) ∈ done.map ChangeBody.entry ↔ _ :=
        (Sections.mem_before once split').trans Sections.before_iff
      have sent : ∀ entry ∈ done.map ChangeBody.entry, (entryFields lib entry).isSome := by
        intro entry there
        obtain ⟨a,held,rfl⟩ := List.mem_map.mp there
        rw [(sends a (by simp [← split,held])).fields]
        rfl
      have apart {ty ty' : EntityType} (same : b.entity_type = ty) (later : ¬[ty',ty].Sublist baseline_order)
          (other : ty' ≠ ty) (id : String) : (ty',id) ∉ done.map ChangeBody.entry := by
        intro there
        rcases before.mp there with ⟨earlier,-⟩ | ⟨one,-⟩
        · exact later (same ▸ earlier)
        · exact other (one.trans same)
      have new : b.entry ∉ done.map ChangeBody.entry := by
        intro there
        rw [← split'] at once
        exact (List.nodup_append.mp once).2.2 _ there _ (.head _) rfl
      rw [List.map_append]
      exact adds rebuilt sound sent new (fun document => apart document (by decide) (by decide))
        (fun card => apart card (by decide) (by decide)) (sends b inside)) (rebuilt_vacant lib now)
  rw [sections] at run
  refine ⟨run.1.trans ⟨fun all done entry rest split => ?_,fun all done b rest split => ?_⟩,run.2⟩
  · rw [← sections] at split
    obtain ⟨first,last,rfl,rfl,later⟩ := List.map_eq_append_iff.mp split.symm
    obtain ⟨b,rest,rfl,rfl,rfl⟩ := List.map_eq_cons_iff.mp later
    exact all first b rest rfl
  · exact all _ _ (rest.map ChangeBody.entry) (by rw [← sections,← split,List.map_append,List.map_cons])

end

/-! ### Libraries that survive -/

section
variable [Formats] {listing : Listing} {lib : Replica} {reading : Reading} {ty ty' : EntityType} {t : TableName}
  {id id' : String} {row : Row} {done rest : List Entry}

/-- The item is sent, as a document or as the shell of a highlight. -/
def SentItem (lib : Replica) (id : String) : Prop := Has lib .Document id ∨ Has lib .Highlight id

/-- The collections with their parents, as they are listed. -/
def Listing.forest (listing : Listing) (lib : Replica) : List (String × Option String) :=
  (listing.rows .collections).map (fun id => (id,parent_of lib id))

/-- What is sent refers to what was sent before: no feed is in a folder, collections on cycles of parents
    and below them happen to come after their parents, the source of a highlight is a document or a highlight
    that is listed before, and notes and memberships belong to items that are sent. Numbers that must be there
    are finite. -/
structure Rebuildable [Sqlite] (listing : Listing) (lib : Replica) : Prop where
  finite : ∀ ty t id row, ty ≠ .ReviewLog → Has lib ty id → carryingTable ty = some t → lib.row t id = some row →
    ∀ c ∈ columns t, c.not_null → ∀ x, row c.name = .Real x → x.is_finite
  feeds : ∀ id row s, lib.row .feeds id = some row → row "folder_id" ≠ .Text s
  collections : ∀ a b, (a,some b) ∈ listing.forest lib → b ∈ (listing.forest lib).map Prod.fst →
    ¬ ParentFirst.Rooted (listing.forest lib) a → b = a ∨ [b,a].Sublist ((listing.forest lib).map Prod.fst)
  highlights : ∀ id row s, lib.row .highlight_meta id = some row → row "source_item_id" = .Text s →
    s = id ∨ Has lib .Document s ∨ [s,id].Sublist (listing.rows .highlight_meta)
  notes : ∀ id row s, lib.row .notes id = some row → row "content_item_id" = .Text s → SentItem lib s
  tagged : ∀ ends ∈ lib.content_item_tags, SentItem lib ends.1
  collected : ∀ ends ∈ lib.content_item_collections, SentItem lib ends.1

omit [Formats] in
/-- What is sent before an entry: what has an earlier type, and what comes before it under its own type. -/
theorem Complete.done_iff (complete : Complete listing lib reading) (split : done ++ (ty,id) :: rest = reading.entries) :
    (ty',id') ∈ done ↔ ([ty',ty].Sublist baseline_order ∧ Has lib ty' id') ∨ (ty' = ty ∧ [id',id].Sublist (reading.part ty)) := by
  have once : reading.entries.Nodup := Sections.nodup_all baseline_order_nodup (fun ty _ => complete.nodup ty)
  have here : id ∈ reading.part ty := by
    have inside : (ty,id) ∈ reading.entries := by
      rw [← split]
      simp
    exact (Sections.mem_all.mp inside).2
  rw [Sections.mem_before once split,Reading.entries,Sections.before_iff,complete.mem]
  simp [here]

omit [Formats] in
/-- An earlier type is sent as a whole. -/
theorem Complete.done_earlier (complete : Complete listing lib reading) (split : done ++ (ty,id) :: rest = reading.entries)
    (earlier : [ty',ty].Sublist baseline_order) (apart : ty' ≠ ty) : (ty',id') ∈ done ↔ Has lib ty' id' := by
  rw [complete.done_iff split]
  simp [earlier,apart]

omit [Formats] in
/-- What one column refers to is held. -/
theorem resolves_one {entry : Entry} (name : String) (parent : TableName)
    (only : ∀ c ∈ columns t, (c.references = none ∧ c.name ≠ name) ∨ (c.references = some parent ∧ c.name = name))
    (column : ∃ c ∈ columns t, c.name = name) :
    Resolves done entry t row ↔ ∀ s, row name = .Text s → Held (done ++ [entry]) parent s := by
  constructor
  · intro resolves s names
    obtain ⟨c,there,rfl⟩ := column
    rcases only c there with ⟨-,other⟩ | ⟨refers,-⟩
    · exact absurd rfl other
    · exact resolves c there parent s refers names
  · intro all c there parent' s refers names
    rcases only c there with ⟨plain,-⟩ | ⟨refers',named⟩
    · rw [plain] at refers
      cases refers
    · obtain rfl := Option.some.inj (refers'.symm.trans refers)
      exact all s (named ▸ names)

omit [Formats] in
theorem resolves_none {entry : Entry} (plain : ∀ c ∈ columns t, c.references = none) : Resolves done entry t row := by
  intro c there parent s refers
  rw [plain c there] at refers
  cases refers

section
variable [Sqlite] (sound : Sound lib) (lists : listing.Lists lib) (complete : Complete listing lib reading)

omit [Formats] in
theorem admitted_iff (sound : Sound lib) (there : lib.row t id = some row) : row_admitted t (carried_row t row) ↔
    ∀ c ∈ columns t, c.not_null → ∀ x, row c.name = .Real x → x.is_finite := by
  rw [row_admitted_carried]
  exact forall_congr' (fun c => forall_congr' (fun column => admits_carried (sound.admitted t id row there c column)))

omit [Formats] in
/-- What it takes to apply the change of a row, by what the row refers to. -/
theorem follows_iff (sound : Sound lib) (carrying : carryingTable ty = some t) (plain : ty ≠ .ReviewLog)
    (there : lib.row t id = some row) : Applicable lib done (ty,id) ↔
      (∀ c ∈ columns t, c.not_null → ∀ x, row c.name = .Real x → x.is_finite) ∧ Resolves done (ty,id) t row := by
  have rows : ty ≠ .TagEdge ∧ ty ≠ .CollectionEdge := by
    constructor
    · rintro rfl
      cases carrying
    · rintro rfl
      cases carrying
  rw [applicable_row ⟨rows,plain⟩ carrying there,admitted_iff sound there]

omit [Formats] in
/-- A library has what its rows refer to. -/
theorem Sound.there (sound : Sound lib) (there : lib.row t id = some row) {c : Column} {parent : TableName} {s : String}
    (column : c ∈ columns t) (refers : c.references = some parent) (names : row c.name = .Text s) : (lib.row parent s).isSome := by
  have ok := sound.references t id row there c column
  unfold reference_ok at ok
  rwa [names,refers] at ok

omit [Sqlite] [Formats] in
theorem has_carrying (carrying : carryingTable ty = some t) (plain : ty ≠ .Document) :
    Has lib ty id ↔ ∃ row, lib.row t id = some row := by
  have one : Has lib ty id ↔ ∃ t row, carryingTable ty = some t ∧ lib.row t id = some row := by
    cases ty <;> first | exact Iff.rfl | exact absurd rfl plain | cases carrying
  rw [one,carrying]
  simp

include complete

omit [Sqlite] [Formats] in
theorem Complete.held_items (split : done ++ (ty,id) :: rest = reading.entries)
    (later : [.Document,ty].Sublist baseline_order ∧ [.Highlight,ty].Sublist baseline_order) (apart : .Document ≠ ty ∧ .Highlight ≠ ty) :
    Held done .content_items id' ↔ SentItem lib id' := by
  rw [Held,complete.done_earlier split later.1 apart.1,complete.done_earlier split later.2 apart.2,SentItem]

omit [Sqlite] [Formats] complete in
theorem mem_forest (lists : listing.Lists lib) {a b : String} :
    (a,some b) ∈ listing.forest lib ↔ ∃ row, lib.row .collections a = some row ∧ row "parent_id" = .Text b := by
  have text {v : SqlValue} : get_optional_text v = some b ↔ v = .Text b := by cases v <;> simp [get_optional_text]
  simp only [Listing.forest,List.mem_map,Prod.mk.injEq,(lists.rows .collections).2,parent_of,Option.isSome_iff_exists]
  constructor
  · rintro ⟨id,⟨row,there⟩,rfl,parent⟩
    rw [there] at parent
    exact ⟨row,there,text.mp parent⟩
  · rintro ⟨row,there,names⟩
    exact ⟨a,⟨row,there⟩,rfl,by rw [there]; exact text.mpr names⟩

omit [Sqlite] [Formats] complete in
theorem forest_ids (listing : Listing) (lib : Replica) : (listing.forest lib).map Prod.fst = listing.rows .collections := by
  rw [Listing.forest,List.map_map]
  exact List.map_id _

omit [Sqlite] [Formats] complete in
theorem resolves_feed : Resolves done (.FeedSubscription,id) .feeds row ↔ ∀ s, row "folder_id" ≠ .Text s :=
  resolves_one "folder_id" .feed_folders (t := .feeds) (by decide) (by decide)

omit [Sqlite] [Formats] in
theorem resolves_collection (split : done ++ (.Collection,id) :: rest = reading.entries) :
    Resolves done (.Collection,id) .collections row ↔
      ∀ s, row "parent_id" = .Text s → s = id ∨ [s,id].Sublist (reading.part .Collection) := by
  rw [resolves_one "parent_id" .collections (t := .collections) (by decide) (by decide)]
  refine forall_congr' (fun s => imp_congr_right (fun _ => ?_))
  rw [held_done,Held,complete.done_iff split]
  simp [show ¬ [EntityType.Collection,.Collection].Sublist baseline_order by decide,tablesOf,or_comm]

omit [Sqlite] [Formats] in
theorem resolves_highlight (split : done ++ (.Highlight,id) :: rest = reading.entries) :
    Resolves done (.Highlight,id) .highlight_meta row ↔
      ∀ s, row "source_item_id" = .Text s → s = id ∨ Has lib .Document s ∨ [s,id].Sublist (listing.rows .highlight_meta) := by
  rw [resolves_one "source_item_id" .content_items (t := .highlight_meta) (by decide) (by decide)]
  refine forall_congr' (fun s => imp_congr_right (fun _ => ?_))
  rw [held_done,Held,complete.done_earlier split (by decide) (by decide),complete.done_iff split,← complete.highlights]
  simp [show ¬ [EntityType.Highlight,.Highlight].Sublist baseline_order by decide,tablesOf,or_comm]

omit [Sqlite] [Formats] in
theorem resolves_note (split : done ++ (.Note,id) :: rest = reading.entries) :
    Resolves done (.Note,id) .notes row ↔ ∀ s, row "content_item_id" = .Text s → SentItem lib s := by
  rw [resolves_one "content_item_id" .content_items (t := .notes) (by decide) (by decide)]
  refine forall_congr' (fun s => imp_congr_right (fun _ => ?_))
  rw [held_done,complete.held_items split (by decide) (by decide)]
  simp [tablesOf]

include sound

omit [Formats] in
/-- Cards belong to highlights, and logs to cards, all of which are sent before. -/
theorem resolves_card (split : done ++ (.ReviewCard,id) :: rest = reading.entries) (there : lib.row .review_cards id = some row) :
    Resolves done (.ReviewCard,id) .review_cards row := by
  refine (resolves_one "content_item_id" .highlight_meta (t := .review_cards) (by decide) (by decide)).mpr (fun s names => ?_)
  rw [held_done,Held,complete.done_earlier split (by decide) (by decide)]
  refine .inl ((has_carrying rfl (by decide)).mpr (Option.isSome_iff_exists.mp ?_))
  exact sound.there there (c := ⟨"content_item_id",.TEXT,true,.value .Null,.any,.binary,some .highlight_meta⟩) (by simp [columns]) rfl names

omit [Formats] in
theorem resolves_log (split : done ++ (.ReviewLog,id) :: rest = reading.entries) (there : lib.row .review_logs id = some row) :
    Resolves done (.ReviewLog,id) .review_logs row := by
  refine (resolves_one "card_id" .review_cards (t := .review_logs) (by decide) (by decide)).mpr (fun s names => ?_)
  rw [held_done,Held,complete.done_earlier split (by decide) (by decide)]
  refine .inl ((has_carrying rfl (by decide)).mpr (Option.isSome_iff_exists.mp ?_))
  exact sound.there there (c := ⟨"card_id",.TEXT,true,.value .Null,.any,.no,some .review_cards⟩) (by simp [columns]) rfl names

include lists in
omit [Formats] in
/-- Collections come after their parents, or are in the order of the listing where a cycle holds them back. -/
theorem collections_iff : (∀ a b, (a,some b) ∈ listing.forest lib → b = a ∨ [b,a].Sublist (reading.part .Collection)) ↔
    ∀ a b, (a,some b) ∈ listing.forest lib → b ∈ (listing.forest lib).map Prod.fst →
      ¬ ParentFirst.Rooted (listing.forest lib) a → b = a ∨ [b,a].Sublist ((listing.forest lib).map Prod.fst) := by
  have distinct : ((listing.forest lib).map Prod.fst).Nodup := forest_ids listing lib ▸ (lists.rows .collections).1
  rw [complete.collections,← ParentFirst.orderOf_parent_first distinct]
  refine forall_congr' (fun a => forall_congr' (fun b => forall_congr' (fun node => ?_)))
  obtain ⟨row,there,names⟩ := (mem_forest lists).mp node
  have held : b ∈ (listing.forest lib).map Prod.fst := by
    rw [forest_ids]
    refine ((lists.rows .collections).2 b).mpr ?_
    exact sound.there there (c := ⟨"parent_id",.TEXT,false,.value .Null,.any,.no,some .collections⟩) (by simp [columns]) rfl names
  exact ⟨fun before _ => before,fun before => before held⟩

omit [Sqlite] sound in
/-- An edge can be applied iff its item is sent. -/
theorem edge_iff (legible : Legible lib) (other : TableName) {ends : String × String}
    (split : done ++ (ty,edge_id ends) :: rest = reading.entries)
    (later : [.Document,ty].Sublist baseline_order ∧ [.Highlight,ty].Sublist baseline_order) (apart : .Document ≠ ty ∧ .Highlight ≠ ty)
    (held : (lib.row .content_items ends.1).isSome) (label : Held done other ends.2) :
    (∃ ends', split_edge_id (edge_id ends) = .ok ends' ∧ Held done .content_items ends'.1 ∧ Held done other ends'.2) ↔
      SentItem lib ends.1 := by
  obtain ⟨item,there⟩ := Option.isSome_iff_exists.mp held
  rw [split_edge (Formats.plain _ _ (legible_id legible (by decide) there))]
  rw [← complete.held_items split later apart]
  constructor
  · rintro ⟨ends',same,first,-⟩
    exact Except.ok.inj same ▸ first
  · intro first
    exact ⟨ends,rfl,first,label⟩

omit complete in
/-- Each change of a library follows those before it iff the library survives. -/
theorem survives_iff (legible : Legible lib) (lists : listing.Lists lib) (complete : Complete listing lib reading) :
    (∀ done entry rest, done ++ entry :: rest = reading.entries → Applicable lib done entry) ↔ Rebuildable listing lib := by
  constructor
  · intro follows
    have at_row (ty : EntityType) {t : TableName} {id : String} {row : Row} (carrying : carryingTable ty = some t)
        (plain : ty ≠ .ReviewLog) (has : Has lib ty id) (there : lib.row t id = some row) :
        ∃ done rest, done ++ (ty,id) :: rest = reading.entries ∧
          (∀ c ∈ columns t, c.not_null → ∀ x, row c.name = .Real x → x.is_finite) ∧ Resolves done (ty,id) t row := by
      obtain ⟨done,rest,split⟩ := List.append_of_mem (complete.mem_entries.mpr has)
      exact ⟨done,rest,split.symm,(follows_iff sound carrying plain there).mp (follows _ _ _ split.symm)⟩
    refine ⟨?_,?_,?_,?_,?_,?_,?_⟩
    · intro ty t id row plain has carrying there
      obtain ⟨-,-,-,finite,-⟩ := at_row ty carrying plain has there
      exact finite
    · intro id row s there
      obtain ⟨done,rest,split,-,resolves⟩ := at_row .FeedSubscription rfl (by decide)
        ((has_carrying rfl (by decide)).mpr ⟨row,there⟩) there
      exact resolves_feed.mp resolves s
    · refine (collections_iff sound lists complete).mp (fun a b node => ?_)
      obtain ⟨row,there,names⟩ := (mem_forest lists).mp node
      obtain ⟨done,rest,split,-,resolves⟩ := at_row .Collection rfl (by decide)
        ((has_carrying rfl (by decide)).mpr ⟨row,there⟩) there
      exact (resolves_collection complete split).mp resolves b names
    · intro id row s there
      obtain ⟨done,rest,split,-,resolves⟩ := at_row .Highlight rfl (by decide)
        ((has_carrying rfl (by decide)).mpr ⟨row,there⟩) there
      exact (resolves_highlight complete split).mp resolves s
    · intro id row s there
      obtain ⟨done,rest,split,-,resolves⟩ := at_row .Note rfl (by decide)
        ((has_carrying rfl (by decide)).mpr ⟨row,there⟩) there
      exact (resolves_note complete split).mp resolves s
    · intro ends member
      have has : Has lib .TagEdge (edge_id ends) := ⟨ends,member,rfl⟩
      obtain ⟨done,rest,split⟩ := List.append_of_mem (complete.mem_entries.mpr has)
      obtain ⟨item,label⟩ := sound.tags ends member
      refine (edge_iff complete legible .tags split.symm (by decide) (by decide) item ?_).mp (follows _ _ _ split.symm)
      exact (complete.done_earlier split.symm (by decide) (by decide)).mpr
        ((has_carrying rfl (by decide)).mpr (Option.isSome_iff_exists.mp label))
    · intro ends member
      have has : Has lib .CollectionEdge (edge_id ends) := ⟨ends,member,rfl⟩
      obtain ⟨done,rest,split⟩ := List.append_of_mem (complete.mem_entries.mpr has)
      obtain ⟨item,label⟩ := sound.collections ends member
      refine (edge_iff complete legible .collections split.symm (by decide) (by decide) item ?_).mp
        (follows _ _ _ split.symm)
      exact (complete.done_earlier split.symm (by decide) (by decide)).mpr
        ((has_carrying rfl (by decide)).mpr (Option.isSome_iff_exists.mp label))
  · rintro survives done ⟨ty,id⟩ rest split
    have has : Has lib ty id := complete.mem_entries.mp (by rw [← split]; simp)
    have follows {t : TableName} (carrying : carryingTable ty = some t) (plain : ty ≠ .ReviewLog)
        (resolves : ∀ row, lib.row t id = some row → Resolves done (ty,id) t row) : Applicable lib done (ty,id) := by
      obtain ⟨row,there⟩ : ∃ row, lib.row t id = some row := by
        by_cases document : ty = .Document
        · subst document
          obtain ⟨row,there,-⟩ := has
          obtain rfl := Option.some.inj carrying
          exact ⟨row,there⟩
        · exact (has_carrying carrying document).mp has
      exact (follows_iff sound carrying plain there).mpr
        ⟨survives.finite ty t id row plain has carrying there,resolves row there⟩
    cases ty with
    | FeedSubscription =>
      exact follows rfl (by decide) (fun row there => resolves_feed.mpr (fun s => survives.feeds id row s there))
    | Tag => exact follows rfl (by decide) (fun row _ => resolves_none (by decide))
    | Collection =>
      refine follows rfl (by decide) (fun row there => (resolves_collection complete split).mpr (fun s names => ?_))
      exact (collections_iff sound lists complete).mpr survives.collections id s ((mem_forest lists).mpr ⟨row,there,names⟩)
    | Document => exact follows rfl (by decide) (fun row _ => resolves_none (by decide))
    | Highlight =>
      exact follows rfl (by decide) (fun row there =>
        (resolves_highlight complete split).mpr (fun s => survives.highlights id row s there))
    | Note =>
      exact follows rfl (by decide) (fun row there =>
        (resolves_note complete split).mpr (fun s => survives.notes id row s there))
    | ReviewCard => exact follows rfl (by decide) (fun row there => resolves_card sound complete split there)
    | ReviewLog => exact fun row there _ => resolves_log sound complete split there
    | TagEdge =>
      obtain ⟨ends,member,rfl⟩ := has
      obtain ⟨item,label⟩ := sound.tags ends member
      refine (edge_iff complete legible .tags split (by decide) (by decide) item ?_).mpr (survives.tagged ends member)
      exact (complete.done_earlier split (by decide) (by decide)).mpr
        ((has_carrying rfl (by decide)).mpr (Option.isSome_iff_exists.mp label))
    | CollectionEdge =>
      obtain ⟨ends,member,rfl⟩ := has
      obtain ⟨item,label⟩ := sound.collections ends member
      refine (edge_iff complete legible .collections split (by decide) (by decide) item ?_).mpr
        (survives.collected ends member)
      exact (complete.done_earlier split (by decide) (by decide)).mpr
        ((has_carrying rfl (by decide)).mpr (Option.isSome_iff_exists.mp label))
    | Settings => exact follows rfl (by decide) (fun row _ => resolves_none (by decide))

end

/-! ### The library that survived -/

/-- What a device has that has replayed a library: each row as it was sent. An item with an annotation is in the
    inbox, and has nothing but its title unless it is a document as well; an item that was not carried is lost.
    Logs that are not admitted are gone, and the schedule of a card that has logs is that of the logs. -/
structure Survivor [Sqlite] [Scheduler] (lib : Replica) (now : String) (r : Replica) : Prop where
  rows : ∀ t ∈ [TableName.feeds,.tags,.collections,.highlight_meta,.notes,.settings], ∀ id,
    r.row t id = (lib.row t id).map (carried_row t)
  documents : ∀ id item, lib.row .content_items id = some item → item "content_type" ≠ .Text "highlight" →
    lib.row .highlight_meta id = none → r.row .content_items id = some (carried_row .content_items item)
  shells : ∀ id item, lib.row .content_items id = some item → (lib.row .highlight_meta id).isSome →
    r.row .content_items id = some (fun f => if f = "status" then .Text "inbox" else if f = "title" then item "title"
      else if item "content_type" ≠ .Text "highlight" then carried_row .content_items item f else blankShell now f)
  lost : ∀ id, ¬SentItem lib id → r.row .content_items id = none
  folders : ∀ id, r.row .feed_folders id = none
  logs : ∀ id, r.row .review_logs id =
    ((lib.row .review_logs id).map (carried_row .review_logs)).filter (row_admitted .review_logs)
  cards : ∀ id, Option.Rel (FromCard (r.review_log_entries_for_card id))
    ((lib.row .review_cards id).map (carried_row .review_cards)) (r.row .review_cards id)
  tags : r.content_item_tags = lib.content_item_tags
  collections : r.content_item_collections = lib.content_item_collections

section
variable [Sqlite] [Scheduler] {now : String} {r : Replica}

omit [Formats] [Sqlite] [Scheduler] in
/-- A row that is listed as itself is sent. -/
theorem Complete.kept (complete : Complete listing lib reading) (carrying : carryingTable ty = some t) (plain : ty ≠ .Document) :
    kept_row lib reading.entries ty t id = (lib.row t id).map (carried_row t) := by
  unfold kept_row
  cases there : lib.row t id with
  | none => simp
  | some row => rw [if_pos (complete.mem_entries.mpr ((has_carrying carrying plain).mpr ⟨row,there⟩))]

omit [Sqlite] [Scheduler] in
/-- The memberships that are sent are those of the library. -/
theorem Complete.members {members : Finset (String × String)} (legible : Legible lib) (complete : Complete listing lib reading)
    (has : ∀ id, Has lib ty id ↔ ∃ ends ∈ members, edge_id ends = id)
    (held : ∀ ends ∈ members, (lib.row .content_items ends.1).isSome) (ends : String × String) :
    (∃ id, (ty,id) ∈ reading.entries ∧ split_edge_id id = .ok ends) ↔ ends ∈ members := by
  have parts (ends : String × String) (member : ends ∈ members) : split_edge_id (edge_id ends) = .ok ends := by
    obtain ⟨item,there⟩ := Option.isSome_iff_exists.mp (held ends member)
    exact split_edge (Formats.plain _ _ (legible_id legible (by decide) there))
  constructor
  · rintro ⟨id,sent,split⟩
    obtain ⟨ends',member,rfl⟩ := (has id).mp (complete.mem_entries.mp sent)
    obtain rfl := Except.ok.inj (split.symm.trans (parts ends' member))
    exact member
  · intro member
    exact ⟨edge_id ends,complete.mem_entries.mpr ((has _).mpr ⟨ends,member,rfl⟩),parts ends member⟩

/-- What a replay of a whole library leaves. -/
theorem Rebuilt.survivor (rebuilt : Rebuilt lib now reading.entries r) (sound : Sound lib) (legible : Legible lib)
    (complete : Complete listing lib reading) : Survivor lib now r := by
  have document (id : String) : (.Document,id) ∈ reading.entries ↔ Has lib .Document id := complete.mem_entries
  have highlight (id : String) : (.Highlight,id) ∈ reading.entries ↔ (lib.row .highlight_meta id).isSome := by
    rw [complete.mem_entries,has_carrying (t := .highlight_meta) rfl (by decide),Option.isSome_iff_exists]
  refine ⟨?_,?_,?_,?_,fun id => rebuilt.rows .feed_folders id (by decide),?_,?_,?_,?_⟩
  · intro t inside id
    simp only [List.mem_cons,List.not_mem_nil,or_false] at inside
    rcases inside with rfl | rfl | rfl | rfl | rfl | rfl <;> rw [rebuilt.rows _ id (by decide)] <;>
      exact complete.kept rfl (by decide)
  · intro id item there other bare
    have has : (.Document,id) ∈ reading.entries := (document id).mpr ⟨item,there,other⟩
    have unmarked : (.Highlight,id) ∉ reading.entries := by simp [highlight,bare]
    rw [rebuilt.rows _ id (by decide)]
    simp [rebuilt_row,rebuilt_item,there,has,unmarked]
  · intro id item there marked
    have has : (.Document,id) ∈ reading.entries ↔ item "content_type" ≠ .Text "highlight" := by
      rw [document]
      constructor
      · rintro ⟨item',there',other⟩
        obtain rfl := Option.some.inj (there.symm.trans there')
        exact other
      · exact fun other => ⟨item,there,other⟩
    rw [rebuilt.rows _ id (by decide)]
    simp only [rebuilt_row,rebuilt_item,there,Option.bind_some,(highlight id).mpr marked,if_true,has]
    congr 1
    funext f
    by_cases other : item "content_type" ≠ .Text "highlight" <;> simp [other]
  · intro id lost
    obtain ⟨plain,bare⟩ := not_or.mp lost
    have unsent : (.Document,id) ∉ reading.entries ∧ (.Highlight,id) ∉ reading.entries :=
      ⟨fun sent => plain (complete.mem_entries.mp sent),fun sent => bare (complete.mem_entries.mp sent)⟩
    rw [rebuilt.rows _ id (by decide)]
    simp only [rebuilt_row,rebuilt_item,unsent,if_false]
    cases lib.row .content_items id <;> rfl
  · intro id
    rw [rebuilt.rows _ id (by decide)]
    exact congrArg (Option.filter (row_admitted .review_logs)) (complete.kept rfl (by decide))
  · intro id
    have stored : kept_row lib reading.entries .ReviewCard .review_cards id =
      (lib.row .review_cards id).map (carried_row .review_cards) := complete.kept rfl (by decide)
    exact stored ▸ rebuilt.cards id
  · ext ends
    rw [rebuilt.tags]
    exact complete.members legible (fun _ => Iff.rfl) (fun ends member => (sound.tags ends member).1) ends
  · ext ends
    rw [rebuilt.collections]
    exact complete.members legible (fun _ => Iff.rfl) (fun ends member => (sound.collections ends member).1) ends

omit [Formats] [Sqlite] [Scheduler] in
/-- What is carried reads as what was sent. -/
theorem read_carried_row {cols : List String} (known : ∀ f ∈ cols, ∃ c ∈ columns t, c.name = f) (row : Row) :
    field_map cols (carried_row t row) = field_map cols row := by
  refine Std.ExtTreeMap.ext_getElem? (fun {f} => ?_)
  rw [field_map_get,field_map_get]
  by_cases inside : f ∈ cols
  · obtain ⟨c,column,rfl⟩ := known f inside
    rw [if_pos inside,if_pos inside,carried_column column,read_carried]
  · rw [if_neg inside,if_neg inside]

omit [Formats] in
/-- The entities that are rows of one table, and no documents, read as in the library. -/
theorem Survivor.reads (survivor : Survivor lib now r) (whole : ty ∈ [EntityType.FeedSubscription,.Tag,.Collection,.Note,.Settings])
    (id : String) : r.read_entity_fields ty id = lib.read_entity_fields ty id := by
  have single : ∃ t, tableOf ty = some t ∧ t ∈ [TableName.feeds,.tags,.collections,.highlight_meta,.notes,.settings] := by
    simp only [List.mem_cons,List.not_mem_nil,or_false] at whole
    rcases whole with rfl | rfl | rfl | rfl | rfl <;> exact ⟨_,rfl,by decide⟩
  obtain ⟨t,single,kept⟩ := single
  rw [read_single single,read_single single,survivor.rows t kept,Option.map_map]
  exact congrArg (fun f => (lib.row t id).map f) (funext (fun row => read_carried_row (known_columns single) row))

/-- The baseline of a library that the schema and the parsers admit leaves the library as it is and appends changes
    that can be replayed, in their order and on a device that has nothing, iff the library survives; what they
    leave is then the library as it was carried. -/
theorem baseline_rebuilds (db : Database) (new_id : Nat → String) (now_millis : UInt64)
    (device : db.sync_state.device_id.isSome) (todo : db.sync_state.baseline_done = false) (distinct : new_id.Injective)
    (fresh : ∀ n, db.sync_local_seq ≤ n → ∀ row ∈ db.sync_outbox, row.change_id ≠ new_id n)
    (sound : Sound db.replica) (legible : Legible db.replica) (lists : listing.Lists db.replica) (now : String) :
    ∃ n db' bodies, db.enqueue_sync_baseline listing new_id now_millis = .ok (n,db') ∧ SameLibrary db.replica db'.replica ∧
      db'.sync_outbox.map OutboxRow.body = db.sync_outbox.map OutboxRow.body ++ bodies ∧
      ((∃ r', bodies.foldlM apply_change (vacant now) = .ok r') ↔ Rebuildable listing db.replica) ∧
      ∀ r', bodies.foldlM apply_change (vacant now) = .ok r' → Survivor db.replica now r' ∧
        ∀ ty ∈ [EntityType.FeedSubscription,.Tag,.Collection,.Note,.Settings], ∀ id,
          r'.read_entity_fields ty id = db.replica.read_entity_fields ty id := by
  obtain ⟨reading,reads⟩ := Legible.reads sound legible lists
  have complete := Legible.complete sound legible lists reads
  have start : Enqueued db.replica new_id db [] db :=
    ⟨⟨rfl,rfl,rfl⟩,fresh,[],by simp,rfl,by simp⟩
  obtain ⟨⟨n,db'⟩,run,same,-,bodies,outbox,named,sends⟩ := (baseline_enqueued device todo distinct start).2 reading reads
  rw [complete.sent sound] at named
  obtain ⟨follows,leaves⟩ : ((∃ r', bodies.foldlM apply_change (vacant now) = .ok r') ↔ _) ∧ _ := replays named complete.nodup sends sound
  refine ⟨n,db',bodies,run,same,outbox,follows.trans (survives_iff sound legible lists complete),fun r' ok => ?_⟩
  have survivor := (leaves r' ok).survivor sound legible complete
  exact ⟨survivor,fun ty whole => survivor.reads whole⟩

end
end

/-! ### A tag and a document -/

section
attribute [local instance] plainSqlite plainScheduler

/-- Ids in their canonical text only, and every text for a time. -/
@[reducible] def plainFormats : Formats where
  parse_uuid s := if s.length = 36 ∧ s.toList.all (fun c => c.isDigit || c = '-' || ('a' ≤ c && c ≤ 'f')) then some s else none
  is_time _ := true
  canonical s id parsed := by
    split at parsed
    · next plain =>
      obtain rfl := Option.some.inj parsed
      exact if_pos plain
    · cases parsed
  plain s id parsed := by
    split at parsed
    · next plain =>
      obtain rfl := Option.some.inj parsed
      intro colon
      exact absurd (List.all_eq_true.mp plain.2 ':' colon) (by decide)
    · cases parsed

attribute [local instance] plainFormats

def rust : String := "0190f5c4-0000-7000-8000-000000000001"

def book : String := "0190f5c4-0000-7000-8000-000000000002"

def rust_row : Row := fun f => if f = "name" then .Text "rust" else .Null

def book_row : Row := fun f =>
  if f = "title" then .Text "The Book" else if f = "content_type" then .Text "article"
  else if f = "status" then .Text "inbox" else .Null

/-- The ids that the outbox rows draw. -/
def outbox_id (n : Nat) : String := String.ofList (List.replicate n '0')

/-- A document with a tag. -/
def tagged_book : Replica :=
  { (Replica.empty.set_row .tags rust rust_row).set_row .content_items book book_row with content_item_tags := {(book,rust)} }

def one_of_each : Listing where
  rows := fun t => match t with
    | .tags => [rust]
    | .content_items => [book]
    | _ => []
  tags := [(book,rust)]
  collections := []

theorem tagged_book_row (t : TableName) (id : String) : tagged_book.row t id =
    if t = .content_items ∧ id = book then some book_row else if t = .tags ∧ id = rust then some rust_row else none := by
  have same : tagged_book.row t id =
      ((Replica.empty.set_row .tags rust rust_row).set_row .content_items book book_row).row t id := rfl
  rw [same,row_set_row,row_set_row]
  simp [row,Replica.empty]

theorem tagged_book_rows {t : TableName} {id : String} {row : Row} (there : tagged_book.row t id = some row) :
    (t = .content_items ∧ id = book ∧ row = book_row) ∨ (t = .tags ∧ id = rust ∧ row = rust_row) := by
  rw [tagged_book_row] at there
  split at there
  · next here => exact .inl ⟨here.1,here.2,(Option.some.inj there).symm⟩
  · split at there
    · next here => exact .inr ⟨here.1,here.2,(Option.some.inj there).symm⟩
    · cases there

theorem tagged_book_sound : Sound tagged_book := by
  have held : (tagged_book.row .content_items book).isSome ∧ (tagged_book.row .tags rust).isSome := by
    simp [tagged_book_row]
  refine ⟨?_,?_,?_,?_,?_,?_,?_⟩
  · intro t id row there
    rcases tagged_book_rows there with ⟨rfl,rfl,rfl⟩ | ⟨rfl,rfl,rfl⟩ <;> intro c column <;>
      simp only [columns,List.mem_cons,List.not_mem_nil,or_false] at column
    · rcases column with rfl | rfl | rfl | rfl | rfl | rfl | rfl | rfl | rfl <;>
        exact ⟨by simp [book_row,coerce],by simp [book_row]⟩
    · subst column
      exact ⟨by simp [rust_row,coerce],by simp [rust_row]⟩
  · intro t id row there
    rcases tagged_book_rows there with ⟨rfl,rfl,rfl⟩ | ⟨rfl,rfl,rfl⟩ <;> decide
  · intro t id row there
    rcases tagged_book_rows there with ⟨rfl,rfl,rfl⟩ | ⟨rfl,rfl,rfl⟩ <;> decide
  · intro t id row there
    rcases tagged_book_rows there with ⟨rfl,rfl,rfl⟩ | ⟨rfl,rfl,rfl⟩ <;> decide
  · intro id there
    simp [tagged_book_row] at there
  · intro ends member
    obtain rfl : ends = (book,rust) := by simpa [tagged_book] using member
    exact held
  · intro ends member
    simp [tagged_book,set_row,Replica.empty] at member

theorem tagged_book_legible : Legible tagged_book := by
  intro t id row there
  rcases tagged_book_rows there with ⟨rfl,rfl,rfl⟩ | ⟨rfl,rfl,rfl⟩ <;> decide

theorem tagged_book_lists : one_of_each.Lists tagged_book := by
  refine ⟨fun t => ⟨?_,fun id => ?_⟩,⟨by decide,fun ends => ?_⟩,⟨by decide,fun ends => ?_⟩⟩
  · cases t <;> decide
  · rw [tagged_book_row]
    cases t <;> simp [one_of_each]
  · simp [one_of_each,tagged_book]
  · simp [one_of_each,tagged_book,set_row,Replica.empty]

theorem tagged_book_survives : Rebuildable one_of_each tagged_book := by
  refine ⟨?_,?_,?_,?_,?_,?_,?_⟩
  · intro ty t id row _ _ _ there c _ _ x real
    rcases tagged_book_rows there with ⟨rfl,rfl,rfl⟩ | ⟨rfl,rfl,rfl⟩
    · simp [book_row] at real
      grind
    · simp [rust_row] at real
      grind
  · intro id row s there
    simp [tagged_book_row] at there
  · simp [Listing.forest,one_of_each]
  · intro id row s there
    simp [tagged_book_row] at there
  · intro id row s there
    simp [tagged_book_row] at there
  · intro ends member
    obtain rfl : ends = (book,rust) := by simpa [tagged_book] using member
    exact .inl ⟨book_row,by simp [tagged_book_row],by simp [book_row]⟩
  · intro ends member
    simp [tagged_book,set_row,Replica.empty] at member

theorem baseline_rebuilds_tagged : ∃ n db' bodies,
    ({ Database.fresh "phone" with replica := tagged_book }).enqueue_sync_baseline one_of_each outbox_id 5 = .ok (n,db') ∧
      db'.sync_outbox.map OutboxRow.body = bodies ∧
      ∃ r', bodies.foldlM apply_change (vacant "now") = .ok r' ∧ Survivor tagged_book "now" r' := by
  obtain ⟨n,db',bodies,run,-,outbox,replayed,leaves⟩ := baseline_rebuilds
    { Database.fresh "phone" with replica := tagged_book } outbox_id 5 rfl rfl (fun a b same => by simpa [outbox_id] using congrArg String.length same) (by simp [Database.fresh]) tagged_book_sound tagged_book_legible
    tagged_book_lists "now"
  obtain ⟨r',ok⟩ := replayed.mpr tagged_book_survives
  exact ⟨n,db',bodies,run,outbox,r',ok,(leaves r' ok).1⟩

end
end Pergamon
