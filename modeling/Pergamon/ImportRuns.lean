import Pergamon.ImportSteps
import Pergamon.Requests

/-!
The loop over a list of highlights as a list of requests. What the loop asks the library for are
sources, entries and remarks under the urls of sources, and what it decides depends on no more than
the shelf of the library: which urls it holds, whether their items can be read, and the notes on them.
So a run of the loop goes as the requests go, in a dry run and in a real one (`import_entries_tracks`).
-/
namespace Pergamon
open Fallible Library

namespace ImportDb

/-- The ids in all tables but the log. -/
def ids (db : ImportDb) : List String :=
  db.library.ids ++ db.notes.map NoteRow.id ++ db.notes.map NoteRow.content_item_id ++
    db.review_cards.map CardRow.id ++ db.review_cards.map CardRow.content_item_id

theorem mem_ids {db : ImportDb} {id : String} : id ∈ db.ids ↔ id ∈ db.library.ids ∨ id ∈ db.notes.map NoteRow.id ∨
    id ∈ db.notes.map NoteRow.content_item_id ∨ id ∈ db.review_cards.map CardRow.id ∨ id ∈ db.review_cards.map CardRow.content_item_id := by
  simp only [ids,List.mem_append,or_assoc]

/-- The ids that are drawn next are new, and all different. -/
structure Fresh (db : ImportDb) : Prop where
  once : Function.Injective db.library.uuids
  new : ∀ n, db.library.uuids n ∉ db.ids

/-- Tables that went on. -/
structure Grown (db db' : ImportDb) : Prop where
  library : Library.Grown db.library db'.library
  draws : ∃ k, db'.library.uuids = (fun n => db.library.uuids (n + k)) ∧ ∀ id ∈ db'.ids, id ∈ db.ids ∨ ∃ n < k, id = db.library.uuids n

/-- The tables are the same, but for the full-text index. -/
structure Still (db db' : ImportDb) : Prop where
  library : Library.Still db.library db'.library
  notes : db'.notes = db.notes
  review_cards : db'.review_cards = db.review_cards
  import_log : db'.import_log = db.import_log

/-- The tables are the same, but for the full-text index and the log. -/
structure Kept (db db' : ImportDb) : Prop where
  library : Library.Still db.library db'.library
  notes : db'.notes = db.notes
  review_cards : db'.review_cards = db.review_cards

/-- Nothing has changed, but that ids were drawn. -/
def Untouched (db db' : ImportDb) : Prop := ∃ k, db' = { db with library := { db.library with uuids := fun n => db.library.uuids (n + k) } }

section
variable {db db' db'' : ImportDb}

theorem Untouched.refl (db : ImportDb) : Untouched db db := ⟨0,rfl⟩

theorem Untouched.trans (one : Untouched db db') (two : Untouched db' db'') : Untouched db db'' := by
  obtain ⟨k,rfl⟩ := one
  obtain ⟨k',rfl⟩ := two
  exact ⟨k' + k,by simp only [Nat.add_assoc]⟩

theorem Untouched.still (untouched : Untouched db db') : Still db db' := by
  obtain ⟨k,rfl⟩ := untouched
  exact ⟨⟨rfl,k,rfl⟩,rfl,rfl,rfl⟩

theorem Fresh.library (fresh : db.Fresh) : db.library.Fresh :=
  ⟨fresh.once,fun n inside => fresh.new n (mem_ids.mpr (.inl inside))⟩

theorem Fresh.grown (fresh : db.Fresh) (grown : Grown db db') : db'.Fresh := by
  obtain ⟨k,uuids,drawn⟩ := grown.draws
  refine ⟨?_,?_⟩
  · rw [uuids]
    intro m n same
    have := fresh.once same
    omega
  · intro n inside
    rw [uuids] at inside
    rcases drawn _ inside with old | ⟨m,small,same⟩
    · exact fresh.new _ old
    · have := fresh.once same
      omega

theorem Grown.refl (db : ImportDb) : Grown db db := ⟨.refl db.library,0,rfl,fun _ inside => .inl inside⟩

theorem Grown.trans (one : Grown db db') (two : Grown db' db'') : Grown db db'' := by
  refine ⟨one.library.trans two.library,?_⟩
  obtain ⟨k,uuids,drawn⟩ := one.draws
  obtain ⟨k',uuids',drawn'⟩ := two.draws
  refine ⟨k + k',?_,?_⟩
  · rw [uuids',uuids]
    funext n
    exact congrArg db.library.uuids (by omega)
  · intro id inside
    rcases drawn' id inside with old | ⟨n,small,rfl⟩
    · rcases drawn id old with older | ⟨n,small,rfl⟩
      · exact .inl older
      · exact .inr ⟨n,by omega,rfl⟩
    · exact .inr ⟨n + k,by omega,by rw [uuids]⟩

/-- Work on the library alone. -/
theorem Grown.of_library (db : ImportDb) {lib : Library} (grown : Library.Grown db.library lib) : Grown db { db with library := lib } := by
  refine ⟨grown,?_⟩
  obtain ⟨k,uuids,drawn⟩ := grown.draws
  refine ⟨k,uuids,?_⟩
  intro id inside
  have old := drawn id
  simp only [ids,List.mem_append] at inside ⊢
  tauto

theorem Still.refl (db : ImportDb) : Still db db := ⟨.refl db.library,rfl,rfl,rfl⟩

theorem Still.trans (one : Still db db') (two : Still db' db'') : Still db db'' :=
  ⟨one.library.trans two.library,two.notes.trans one.notes,two.review_cards.trans one.review_cards,two.import_log.trans one.import_log⟩

theorem Still.of_library {lib : Library} (still : Library.Still db.library lib) : Still db { db with library := lib } :=
  ⟨still,rfl,rfl,rfl⟩

theorem Still.kept (still : Still db db') : Kept db db' := ⟨still.library,still.notes,still.review_cards⟩

theorem Kept.trans (one : Kept db db') (two : Kept db' db'') : Kept db db'' :=
  ⟨one.library.trans two.library,two.notes.trans one.notes,two.review_cards.trans one.review_cards⟩

theorem Kept.grown (kept : Kept db db') : Grown db db' := by
  obtain ⟨library,notes,cards⟩ := kept
  obtain ⟨k,uuids,drawn⟩ := library.grown.draws
  refine ⟨library.grown,k,uuids,?_⟩
  intro id inside
  rw [mem_ids,notes,cards] at inside
  rcases inside with there | there
  · exact (drawn id there).imp (fun old => mem_ids.mpr (.inl old)) (fun drawn => drawn)
  · exact .inl (mem_ids.mpr (.inr there))

theorem Still.grown (still : Still db db') : Grown db db' := still.kept.grown

theorem run_ok {statement : ImportDb → Except StorageError ImportDb} (ok : statement db = .ok db') : run statement db = .ok () db' := by
  unfold run
  rw [ok]

theorem on_library_ok {α : Type} {work : Work α} {lib lib' : Library} {a : α} (db : ImportDb) (does : work lib = .ok a lib') :
    on_library work { db with library := lib } = .ok a { db with library := lib' } := by
  simp only [on_library,does]

theorem on_library_error {α : Type} {work : Work α} {lib lib' : Library} {e : Failure} (db : ImportDb) (fails : work lib = .error e lib') :
    on_library work { db with library := lib } = .error e { db with library := lib' } := by
  simp only [on_library,fails]

/-- What work on the library does, it does to the database. -/
theorem on_library_does {α : Type} {work : Work α} {lib : Library} {ok : α → Library → Prop} {bad : Library → Prop} (db : ImportDb)
    (does : Does work lib ok bad) : Does (on_library work) { db with library := lib }
      (fun a db' => ∃ lib', ok a lib' ∧ db' = { db with library := lib' }) (fun db' => ∃ lib', bad lib' ∧ db' = { db with library := lib' }) := by
  unfold Does on_library at *
  dsimp only
  cases ran : work lib with
  | ok a lib' => exact ⟨lib',by rwa [ran] at does,rfl⟩
  | error e lib' => exact ⟨lib',by rwa [ran] at does,rfl⟩

end

/-! ### The shelf -/

section
variable [TimeCrate] {db db' : ImportDb}

/-- The bodies of the notes on an item, if they can be read. -/
def listed (db : ImportDb) (id : String) : Option (List String) :=
  if (db.note_rows id).all note_reads then some ((db.note_rows id).map NoteRow.body) else none

/-- What the library shows to requests. -/
def shelf (db : ImportDb) : Requests.Shelf String String :=
  ⟨db.library.held,fun key =>
    match db.library.item_row key with
    | none => some []
    | some row => db.listed row.id⟩

theorem shelf_same (items : db'.library.content_items = db.library.content_items) (notes : db'.notes = db.notes) : db'.shelf = db.shelf := by
  have rows : db'.library.item_row = db.library.item_row := by
    funext url
    rw [item_row,item_row,items]
  have lists : db'.listed = db.listed := by
    funext id
    rw [listed,listed,note_rows,note_rows,notes]
  rw [shelf,shelf,held_same items,rows,lists]

omit [TimeCrate] in
/-- An id that is new has no notes. -/
theorem note_rows_new {id : String} (new : id ∉ db.ids) : db.note_rows id = [] := by
  rw [note_rows,List.filter_eq_nil_iff]
  intro n inside same
  refine new ?_
  simp only [decide_eq_true_eq] at same
  have there : id ∈ db.notes.map NoteRow.content_item_id := same ▸ List.mem_map_of_mem inside
  simp only [ids,List.mem_append]
  tauto

/-- What is shown when an item was added. -/
theorem shelf_item (db' : ImportDb) {row : ItemRow} {url : String} (items : db'.library.content_items = db.library.content_items ++ [row])
    (notes : db'.notes = db.notes) (named : row.url = some url) (new : row.id ∉ db.ids) (missing : db.library.item_row url = none) :
    db'.shelf = db.shelf.hold true url (Library.row_to_content_item row).isSome := by
  have lists : db'.listed = db.listed := by
    funext id
    rw [listed,listed,note_rows,note_rows,notes]
  refine Requests.Shelf.ext (held_append row items named missing) (funext fun key => ?_)
  have rows : db'.library.item_row key = (db.library.item_row key).or (if row.url = some key then some row else none) := by
    simp only [item_row,items,List.find?_append,List.find?_cons,List.find?_nil]
    congr 1
    by_cases same : row.url = some key <;> simp [same]
  change (match db'.library.item_row key with
    | none => some []
    | some row => db'.listed row.id) = match db.library.item_row key with
    | none => some []
    | some row => db.listed row.id
  rw [rows,lists]
  cases db.library.item_row key with
  | some other => rfl
  | none =>
    by_cases same : row.url = some key
    · simp [same,listed,note_rows_new new]
    · simp [same]

/-- What is shown when a note was added. -/
theorem shelf_note {row : ItemRow} {url : String} {note : NoteRow} {bodies : List String} (indexed : db.library.Indexed)
    (items : db'.library.content_items = db.library.content_items) (notes : db'.notes = db.notes ++ [note])
    (found : db.library.item_row url = some row) (on : note.content_item_id = row.id) (lists : db.listed row.id = some bodies) :
    db'.shelf = db.shelf.note true url (bodies ++ [note.body]) (note_reads note) := by
  have rows : db'.library.item_row = db.library.item_row := by
    funext key
    rw [item_row,item_row,items]
  have listed_there : db'.listed row.id = if note_reads note then some (bodies ++ [note.body]) else none := by
    have appended : db'.note_rows row.id = db.note_rows row.id ++ [note] := by
      rw [note_rows,notes,List.filter_append]
      simp [note_rows,on]
    obtain ⟨all,rfl⟩ : (db.note_rows row.id).all note_reads = true ∧ (db.note_rows row.id).map NoteRow.body = bodies := by
      unfold listed at lists
      split_ifs at lists with all
      exact ⟨all,Option.some.inj lists⟩
    rw [listed,appended,List.all_append,all,List.map_append]
    simp
  have listed_other (id : String) (other : id ≠ row.id) : db'.listed id = db.listed id := by
    have same : db'.note_rows id = db.note_rows id := by
      rw [note_rows,notes,List.filter_append]
      simp [note_rows,on,other.symm]
    rw [listed,listed,same]
  refine Requests.Shelf.ext (held_same items) (funext fun key => ?_)
  change (match db'.library.item_row key with
    | none => some []
    | some row => db'.listed row.id) = Function.update db.shelf.noted url _ key
  rw [Function.update_apply,rows]
  by_cases same : key = url
  · subst same
    rw [if_pos rfl,found]
    exact listed_there
  · rw [if_neg same]
    change _ = match db.library.item_row key with
      | none => some []
      | some row => db.listed row.id
    cases there : db.library.item_row key with
    | none => rfl
    | some other =>
      refine listed_other other.id ?_
      intro equal
      -- two items with one id are one, and it has one url
      obtain ⟨held,named⟩ := item_row_mem there
      obtain ⟨held',named'⟩ := item_row_mem found
      obtain rfl := List.inj_on_of_nodup_map indexed.ids held held' equal
      exact same (Option.some.inj (named.symm.trans named'))

end

/-! ### Cards and notes -/

section
variable [TimeCrate] {db : ImportDb}

/-- A highlight that has no review card gets one. -/
theorem create_review_card_does (fresh : db.Fresh) {id : String} (marked : id ∈ db.library.highlight_meta.map HighlightMeta.content_item_id)
    (uncarded : id ∉ db.review_cards.map CardRow.content_item_id) (now : OffsetDateTime) : Does (create_review_card id now) db
      (fun _ db' => db'.library = db.library.after_draw ∧ db'.notes = db.notes ∧ Grown db db') (fun _ => False) := by
  have drawn : Library.Grown db.library db.library.after_draw := Library.Still.grown ⟨rfl,1,rfl⟩
  have steps : create_review_card id now db = .ok () { db with
      library := db.library.after_draw
      review_cards := db.review_cards ++ [⟨db.library.uuids 0,id,.New,fmt_time now,0,0,fmt_time now,fmt_time now⟩] } := by
    have free : ¬ (db.review_cards.any (fun c => c.id = db.library.uuids 0 || c.content_item_id = id) = true ∨
        ¬ db.library.highlight_meta.any (fun m => m.content_item_id = id) = true) := by
      rintro (taken | unmarked)
      · obtain ⟨c,inside,same⟩ := List.any_eq_true.mp taken
        rcases (by simpa using same : c.id = db.library.uuids 0 ∨ c.content_item_id = id) with same | same
        · have there : db.library.uuids 0 ∈ db.review_cards.map CardRow.id := same ▸ List.mem_map_of_mem inside
          exact fresh.new 0 (mem_ids.mpr (.inr (.inr (.inr (.inl there)))))
        · exact uncarded (same ▸ List.mem_map_of_mem inside)
      · obtain ⟨m,inside,same⟩ := List.mem_map.mp marked
        exact unmarked (List.any_eq_true.mpr ⟨m,inside,by simpa using same⟩)
    rw [create_review_card,work_bind,on_library_ok db new_v4_eq]
    exact run_ok (if_neg free)
  unfold Does
  rw [steps]
  refine ⟨rfl,rfl,drawn,1,rfl,?_⟩
  intro x inside
  have there : id ∈ db.library.ids := by
    simp only [Library.ids,List.mem_append]
    exact .inr marked
  have library : Library.ids db.library.after_draw = Library.ids db.library := rfl
  simp only [mem_ids,library,List.map_append,List.map_cons,List.map_nil,List.mem_append,List.mem_singleton] at inside ⊢
  rcases inside with old | old | old | (old | rfl) | (old | rfl)
  · exact .inl (.inl old)
  · exact .inl (.inr (.inl old))
  · exact .inl (.inr (.inr (.inl old)))
  · exact .inl (.inr (.inr (.inr (.inl old))))
  · exact .inr ⟨0,Nat.one_pos,rfl⟩
  · exact .inl (.inr (.inr (.inr (.inr old))))
  · exact .inl (.inl there)

omit [TimeCrate] in
/-- A note on an item that is there. -/
theorem insert_note_does (fresh : db.Fresh) {item : String} (there : db.library.has_item item) (body created updated : String) :
    Does (insert_note ⟨db.library.uuids 0,item,body,created,updated⟩) { db with library := db.library.after_draw }
      (fun _ db' => db'.library = db.library.after_draw ∧ db'.notes = db.notes ++ [⟨db.library.uuids 0,item,body,created,updated⟩] ∧
        Grown db db') (fun _ => False) := by
  have drawn : Library.Grown db.library db.library.after_draw := Library.Still.grown ⟨rfl,1,rfl⟩
  have free : ¬ (db.notes.any (fun n => n.id = db.library.uuids 0) = true ∨ ¬ db.library.after_draw.has_item item = true) := by
    rintro (taken | missing)
    · obtain ⟨n,inside,same⟩ := List.any_eq_true.mp taken
      have old : db.library.uuids 0 ∈ db.notes.map NoteRow.id := by
        simp only [decide_eq_true_eq] at same
        exact same ▸ List.mem_map_of_mem inside
      exact fresh.new 0 (mem_ids.mpr (.inr (.inl old)))
    · exact missing there
  have steps : insert_note ⟨db.library.uuids 0,item,body,created,updated⟩ { db with library := db.library.after_draw } = .ok () { db with
      library := db.library.after_draw
      notes := db.notes ++ [⟨db.library.uuids 0,item,body,created,updated⟩] } := run_ok (if_neg free)
  unfold Does
  rw [steps]
  refine ⟨rfl,rfl,drawn,1,rfl,?_⟩
  intro x inside
  have owner : item ∈ db.library.ids := by
    simp only [Library.ids,List.mem_append]
    exact .inl (.inl (.inl (.inl (has_item_ids.mp there))))
  have library : Library.ids db.library.after_draw = Library.ids db.library := rfl
  simp only [mem_ids,library,List.map_append,List.map_cons,List.map_nil,List.mem_append,List.mem_singleton] at inside ⊢
  rcases inside with old | (old | rfl) | (old | rfl) | old | old
  · exact .inl (.inl old)
  · exact .inl (.inr (.inl old))
  · exact .inr ⟨0,Nat.one_pos,rfl⟩
  · exact .inl (.inr (.inr (.inl old)))
  · exact .inl (.inl owner)
  · exact .inl (.inr (.inr (.inr (.inl old))))
  · exact .inl (.inr (.inr (.inr (.inr old))))

end

/-! ### Requests -/

section
variable [TimeCrate]

/-- The counts that are reported for requests. A dry run counts no review cards. -/
def stats_of (real enable_review : Bool) (c : Requests.Counts) : HighlightImportStats :=
  ⟨c.sources_created,c.sources_existing,c.entries_created,c.entries_existing,c.remarks_created,
    if real && enable_review then c.entries_created else 0⟩

omit [TimeCrate] in
/-- A dry run reports the same iff it counts the same, and there are no review cards to count. -/
theorem stats_of_eq {enable_review : Bool} {c c' : Requests.Counts} : stats_of true enable_review c = stats_of false enable_review c' ↔
    c = c' ∧ (enable_review = true → c'.entries_created = Requests.Counts.zero.entries_created) := by
  obtain ⟨a,b,c,d,e⟩ := c
  obtain ⟨a',b',c',d',e'⟩ := c'
  cases enable_review with
  | false => simp [stats_of,Requests.Counts.zero]
  | true =>
    simp [stats_of,Requests.Counts.zero]
    omega

/-- What an entry of the list asks for. -/
def requests (now : OffsetDateTime) (e : EntryWanted) : List (Requests.Request String String) :=
  .source e.source.url (stored_reads now e.source.created) ::
    ((e.highlight.map (fun h => .entry h.url (stored_reads now h.created))).toList ++
      (e.note.map (fun n => .remark e.source.url n.body (stored_reads now n.created))).toList)

/-- A loop that goes as requests go: it shows the same shelf, remembers the same sources, and has
    counted the same. A dry run may remember a source that is not there, under an id without notes. -/
structure Tracks (real enable_review : Bool) (now : OffsetDateTime) (db : ImportDb) (cache : SourceCache) (stats : HighlightImportStats)
    (s : Requests.Run String String) : Prop where
  fresh : db.Fresh
  indexed : db.library.Indexed
  clock : db.library.now = now
  shelf : db.shelf = s.toShelf
  met : ∀ k, (cache.lookup k).isSome ↔ k ∈ s.met
  sources : ∀ k id, cache.lookup k = some id → (∃ row, db.library.item_row k = some row ∧ row.id = id) ∨
    real = false ∧ db.library.item_row k = none ∧ db.note_rows id = []
  counts : stats = stats_of real enable_review s.counts

/-- What a step writes: nothing in a dry run, or where nothing is made. -/
structure Wrote (real : Bool) (db db' : ImportDb) (n n' : ℕ) : Prop where
  grown : Grown db db'
  dry : real = false → Untouched db db'
  still : n' = n → Still db db'
  counted : n ≤ n'

/-- What is left where a step fails. -/
structure Left (real : Bool) (db db' : ImportDb) : Prop where
  grown : Grown db db'
  dry : real = false → Untouched db db'

section
variable {real enable_review : Bool} {now : OffsetDateTime} {db db' db'' : ImportDb} {cache : SourceCache}
  {stats : HighlightImportStats} {s : Requests.Run String String} {n n' n'' : ℕ}

omit [TimeCrate] in
theorem Wrote.nothing (real : Bool) (db : ImportDb) (n : ℕ) : Wrote real db db n n := ⟨.refl db,fun _ => .refl db,fun _ => .refl db,le_rfl⟩

omit [TimeCrate] in
theorem Wrote.made (grown : Grown db db') (more : n < n') : Wrote true db db' n n' := ⟨grown,nofun,fun same => absurd same more.ne',more.le⟩

omit [TimeCrate] in
/-- A dry run counts what it does not make. -/
theorem Wrote.dry_made (untouched : Untouched db db') (more : n < n') : Wrote false db db' n n' :=
  ⟨untouched.still.grown,fun _ => untouched,fun same => absurd same more.ne',more.le⟩

omit [TimeCrate] in
theorem Wrote.trans (one : Wrote real db db' n n') (two : Wrote real db' db'' n' n'') : Wrote real db db'' n n'' := by
  have more := one.counted
  have more' := two.counted
  refine ⟨one.grown.trans two.grown,fun dry => (one.dry dry).trans (two.dry dry),?_,more.trans more'⟩
  intro same
  exact (one.still (by omega)).trans (two.still (by omega))

omit [TimeCrate] in
theorem Left.refl (real : Bool) (db : ImportDb) : Left real db db := ⟨.refl db,fun _ => .refl db⟩

omit [TimeCrate] in
theorem Wrote.left (wrote : Wrote real db db' n n') (left : Left real db' db'') : Left real db db'' :=
  ⟨wrote.grown.trans left.grown,fun dry => (wrote.dry dry).trans (left.dry dry)⟩

/-- A source, as it is requested. -/
theorem import_source_tracks (tracks : Tracks real enable_review now db cache stats s) (src : SourceWanted) :
    Does (on_library (import_source (!real) cache stats src)) db
      (fun r db' => ∃ s', Requests.step real s (.source src.url (stored_reads now src.created)) = some s' ∧
        Tracks real enable_review now db' r.2.1 r.2.2 s' ∧ r.2.1.lookup src.url = some r.1 ∧ Wrote real db db' s.counts.made s'.counts.made)
      (fun db' => Requests.step real s (.source src.url (stored_reads now src.created)) = none ∧ Left real db db') := by
  obtain ⟨fresh,indexed,clock,shelf,met,sources,counts⟩ := tracks
  have held : s.held = db.library.held := by rw [← shelf]; rfl
  cases looked : cache.lookup src.url with
  | some id =>
    have inside : src.url ∈ s.met := (met src.url).mp (by rw [looked]; rfl)
    have steps : on_library (import_source (!real) cache stats src) db = .ok (id,cache,stats) db := by
      unfold on_library import_source
      simp only [looked]
      rfl
    unfold Does
    rw [steps]
    exact ⟨s,Requests.step_met inside,⟨fresh,indexed,clock,shelf,met,sources,counts⟩,looked,.nothing real db _⟩
  | none =>
    have outside : src.url ∉ s.met := by
      rw [← met,looked]
      exact Bool.false_ne_true
    have remembered (id : String) (k : String) : (List.lookup k ((src.url,id) :: cache)) = if k = src.url then some id else cache.lookup k := by
      rw [List.lookup_cons]
      by_cases same : k = src.url
      · simp [same]
      · rw [beq_false_of_ne same,if_neg same]
    have met' (id k : String) : (List.lookup k ((src.url,id) :: cache)).isSome ↔ k ∈ src.url :: s.met := by
      rw [remembered,List.mem_cons,← met]
      by_cases same : k = src.url <;> simp [same]
    cases found : db.library.item_row src.url with
    | some row =>
      cases reads : Library.row_to_content_item row with
      | none =>
        have steps : on_library (import_source (!real) cache stats src) db = .error .panic db := by
          unfold on_library import_source
          simp only [looked]
          rw [work_bind,get_by_url_panic found reads]
        unfold Does
        rw [steps]
        exact ⟨Requests.step_source_none.mpr ⟨outside,by rw [held]; simp [Library.held,found,reads]⟩,.refl real db⟩
      | some item =>
        have same_id := row_to_content_item_id reads
        have steps : on_library (import_source (!real) cache stats src) db = .ok (row.id,(src.url,row.id) :: cache,
            { stats with sources_existing := stats.sources_existing + 1 }) db := by
          unfold on_library import_source
          simp only [looked]
          rw [work_bind,get_by_url_some found reads]
          dsimp only
          rw [same_id]
          rfl
        unfold Does
        rw [steps]
        refine ⟨_,Requests.step_found outside (by rw [held]; simp [Library.held,found,reads]),⟨fresh,indexed,clock,shelf,met' row.id,?_,?_⟩,
          by simp,.nothing real db _⟩
        · intro k id there
          rw [remembered] at there
          split_ifs at there with same
          · cases there
            exact .inl ⟨row,same ▸ found,rfl⟩
          · exact sources k id there
        · rw [counts]
          rfl
    | none =>
      have missing : s.held src.url = none := by rw [held]; simp [Library.held,found]
      have drawn : Library.Still db.library db.library.after_draw := ⟨rfl,1,rfl⟩
      cases real with
      | false =>
        have steps : on_library (import_source (!false) cache stats src) db = .ok (db.library.uuids 0,(src.url,db.library.uuids 0) :: cache,
            { stats with sources_created := stats.sources_created + 1 }) { db with library := db.library.after_draw } := by
          unfold on_library import_source
          simp only [looked]
          rw [work_bind,get_by_url_none found]
          rfl
        have grown := Grown.of_library db drawn.grown
        unfold Does
        rw [steps]
        refine ⟨_,Requests.step_made outside missing,⟨fresh.grown grown,grown.library.indexed indexed,grown.library.clock.trans clock,?_,
          met' _,?_,?_⟩,by simp,.dry_made ⟨1,rfl⟩ (by simp only [Requests.Counts.made]; omega)⟩
        · exact (shelf_same rfl rfl).trans shelf
        · intro k id there
          rw [remembered] at there
          split_ifs at there with same
          · cases there
            exact .inr ⟨rfl,same ▸ found,note_rows_new (fresh.new 0)⟩
          · exact sources k id there
        · rw [counts]
          rfl
      | true =>
        have new := fresh.library.new 0
        have row := with_item_row db.library.after_draw (src.item db.library.now (db.library.uuids 0)) rfl found
        have grown : Library.Grown db.library (db.library.after_draw.with_item (src.item db.library.now (db.library.uuids 0))) :=
          with_item_grown fresh.library rfl rfl found
        have steps : on_library (import_source (!true) cache stats src) db =
            on_library (apply_tags (db.library.uuids 0) src.tags >>= fun _ => pure (db.library.uuids 0,(src.url,db.library.uuids 0) :: cache,
              { stats with sources_created := stats.sources_created + 1 }))
              { db with library := db.library.after_draw.with_item (src.item db.library.now (db.library.uuids 0)) } := by
          unfold on_library import_source
          simp only [looked]
          rw [work_bind,get_by_url_none found]
          dsimp only
          rw [get_bind,work_bind,new_v4_eq]
          dsimp only
          rw [if_pos (show (!!true) = true from rfl),work_bind,insert_content_item_new db.library.after_draw rfl new found]
        have fresh' := fresh.grown (.of_library _ grown)
        have tagging : Does (apply_tags (db.library.uuids 0) src.tags >>= fun _ => pure (db.library.uuids 0,
            (src.url,db.library.uuids 0) :: cache,{ stats with sources_created := stats.sources_created + 1 }))
            (db.library.after_draw.with_item (src.item db.library.now (db.library.uuids 0)))
            (fun r lib => r = (db.library.uuids 0,(src.url,db.library.uuids 0) :: cache,
              { stats with sources_created := stats.sources_created + 1 }) ∧
              Labeled (db.library.after_draw.with_item (src.item db.library.now (db.library.uuids 0))) lib) (fun _ => False) := by
          refine ((apply_tags_does fresh'.library (item_row_has row) src.tags).mono (fun _ _ done => done) (fun _ => False.elim)).bind ?_
          exact fun _ _ done => .pure ⟨rfl,done.1⟩
        refine .of_eq steps ((on_library_does db tagging).mono ?_ (fun _ never => never.elim (fun _ never => never.1.elim)))
        rintro _ _ ⟨lib,⟨rfl,labeled⟩,rfl⟩
        have grown' := Grown.of_library db (grown.trans labeled.grown)
        have reads := stored_reads_iff (next_rowid (db.library.after_draw.content_items.map ItemRow.rowid)) db.library.now src.created
          (src.item db.library.now (db.library.uuids 0)) rfl rfl rfl rfl
        refine ⟨_,Requests.step_made outside missing,⟨fresh.grown grown',grown'.library.indexed indexed,grown'.library.clock.trans clock,?_,
          met' _,?_,?_⟩,by simp,.made grown' (by simp only [Requests.Counts.made]; omega)⟩
        · rw [shelf_item { db with library := lib } labeled.items rfl rfl (fresh.new 0) found,reads,clock,shelf]
        · intro k id there
          rw [remembered] at there
          split_ifs at there with same
          · cases there
            exact .inl ⟨_,same ▸ labeled.grown.item_row row,rfl⟩
          · rcases sources k id there with ⟨row,held,key⟩ | ⟨never,-,-⟩
            · exact .inl ⟨row,grown'.library.item_row held,key⟩
            · cases never
        · rw [counts]
          rfl

/-- A highlight, as it is requested. -/
theorem import_highlight_tracks (tracks : Tracks real enable_review now db cache stats s) {source_id : String}
    (source : real → db.library.has_item source_id) (h : HighlightWanted) :
    Does (import_highlight (!real) enable_review source_id stats h) db
      (fun stats' db' => ∃ s', Requests.step real s (.entry h.url (stored_reads now h.created)) = some s' ∧
        Tracks real enable_review now db' cache stats' s' ∧ Wrote real db db' s.counts.made s'.counts.made)
      (fun db' => Requests.step real s (.entry h.url (stored_reads now h.created)) = none ∧ Left real db db') := by
  obtain ⟨fresh,indexed,clock,shelf,met,sources,counts⟩ := tracks
  have held : s.held = db.library.held := by rw [← shelf]; rfl
  cases found : db.library.item_row h.url with
  | some row =>
    cases reads : Library.row_to_content_item row with
    | none =>
      refine .of_eq (y := throw .panic) (t := db) ?_ (.throw ⟨Requests.step_entry_none.mpr (by rw [held]; simp [Library.held,found,reads]),.refl real db⟩)
      rw [import_highlight,work_bind,on_library_error db (get_by_url_panic found reads)]
      rfl
    | some item =>
      refine .of_eq (y := pure { stats with highlights_existing := stats.highlights_existing + 1 }) (t := db) ?_ (.pure ⟨_,
        Requests.entry_found (by rw [held]; simp [Library.held,found,reads]),⟨fresh,indexed,clock,shelf,met,sources,by rw [counts]; rfl⟩,
          .nothing real db _⟩)
      rw [import_highlight,work_bind,on_library_ok db (get_by_url_some found reads)]
  | none =>
    have missing : s.held h.url = none := by rw [held]; simp [Library.held,found]
    cases real with
    | false =>
      refine .of_eq (y := pure { stats with highlights_created := stats.highlights_created + 1 }) (t := db) ?_ (.pure ⟨_,
        Requests.entry_made missing,⟨fresh,indexed,clock,shelf,met,sources,by rw [counts]; rfl⟩,
          .dry_made (.refl db) (by simp only [Requests.Counts.made]; omega)⟩)
      rw [import_highlight,work_bind,on_library_ok db (get_by_url_none found)]
      rfl
    | true =>
      have grown := with_highlight_grown fresh.library source_id found
      have fresh' := fresh.grown (.of_library _ grown)
      have row := with_item_row db.library.after_draw (h.item db.library.now (db.library.uuids 0)) rfl found
      have reads := stored_reads_iff (next_rowid (db.library.after_draw.content_items.map ItemRow.rowid)) db.library.now h.created
        (h.item db.library.now (db.library.uuids 0)) rfl rfl rfl rfl
      -- whatever is written besides, the item is the one that is shown
      have done (db' : ImportDb) (stats' : HighlightImportStats) (items : db'.library.content_items = (db.library.with_highlight h source_id).content_items)
          (notes : db'.notes = db.notes) (grown' : Grown db db')
          (counted : stats' = stats_of true enable_review { s.counts with entries_created := s.counts.entries_created + 1 }) :
          ∃ s', Requests.step true s (.entry h.url (stored_reads now h.created)) = some s' ∧
            Tracks true enable_review now db' cache stats' s' ∧ Wrote true db db' s.counts.made s'.counts.made := by
        refine ⟨_,Requests.entry_made missing,⟨fresh.grown grown',grown'.library.indexed indexed,grown'.library.clock.trans clock,?_,
          met,?_,counted⟩,.made grown' (by simp only [Requests.Counts.made]; omega)⟩
        · rw [shelf_item db' items notes rfl (fresh.new 0) found,reads,clock,shelf]
        · intro k id there
          rcases sources k id there with ⟨row,held,key⟩ | ⟨never,-,-⟩
          · exact .inl ⟨row,grown'.library.item_row held,key⟩
          · cases never
      have tagging : Does (apply_tags (db.library.uuids 0) h.tags) (db.library.with_highlight h source_id)
          (fun _ lib => Labeled (db.library.with_highlight h source_id) lib) (fun _ => False) :=
        (apply_tags_does fresh'.library (item_row_has row) h.tags).mono (fun _ _ done => done.1) (fun _ => False.elim)
      have steps : import_highlight (!true) enable_review source_id stats h db =
          (on_library (apply_tags (db.library.uuids 0) h.tags) >>= fun _ =>
            if enable_review then do
              create_review_card (db.library.uuids 0) db.library.now
              return { stats with
                highlights_created := stats.highlights_created + 1
                review_cards_created := stats.review_cards_created + 1 }
            else return { stats with highlights_created := stats.highlights_created + 1 })
          { db with library := db.library.with_highlight h source_id } := by
        rw [import_highlight,work_bind,on_library_ok db (get_by_url_none found)]
        dsimp only
        rw [if_neg (by simp),get_bind,work_bind,on_library_ok db new_v4_eq]
        dsimp only
        rw [work_bind,on_library_ok db (insert_content_item_new db.library.after_draw rfl (fresh.library.new 0) found)]
        dsimp only
        rw [work_bind,on_library_ok db (insert_highlight_meta_new fresh.library h (source rfl))]
      refine .of_eq steps (((on_library_does db tagging).mono (fun _ _ done => done) (fun _ never => never.elim (fun _ never => never.1.elim))).bind ?_)
      rintro _ _ ⟨lib,labeled,rfl⟩
      have grown' := Grown.of_library db (grown.trans labeled.grown)
      cases enable_review with
      | false => exact .pure (done _ _ labeled.items rfl grown' (by rw [counts]; rfl))
      | true =>
        have marked : lib.highlight_meta = (db.library.with_highlight h source_id).highlight_meta := by rw [labeled.frame]
        have card := create_review_card_does (fresh.grown grown') (by rw [marked]; simp [with_highlight])
          (fun inside => fresh.new 0 (mem_ids.mpr (.inr (.inr (.inr (.inr inside)))))) db.library.now
        rw [if_pos rfl]
        refine (card.mono (fun _ _ done => done) (fun _ => False.elim)).bind ?_
        rintro _ last ⟨library,notes,more⟩
        exact .pure (done _ _ ((congrArg content_items library).trans labeled.items) notes (grown'.trans more) (by rw [counts]; rfl))

/-- A note, as it is requested. -/
theorem import_note_tracks (tracks : Tracks real enable_review now db cache stats s) {key source_id : String}
    (looked : cache.lookup key = some source_id) (n : NoteWanted) :
    Does (import_note (!real) source_id stats n) db
      (fun stats' db' => ∃ s', Requests.step real s (.remark key n.body (stored_reads now n.created)) = some s' ∧
        Tracks real enable_review now db' cache stats' s' ∧ Wrote real db db' s.counts.made s'.counts.made)
      (fun db' => Requests.step real s (.remark key n.body (stored_reads now n.created)) = none ∧ Left real db db') := by
  obtain ⟨fresh,indexed,clock,shelf,met,sources,counts⟩ := tracks
  have noted : s.noted key = db.listed source_id := by
    have shown : s.noted key = match db.library.item_row key with
        | none => some []
        | some row => db.listed row.id := by
      rw [← shelf]
      rfl
    rw [shown]
    rcases sources key source_id looked with ⟨row,found,rfl⟩ | ⟨-,missing,none_there⟩
    · rw [found]
    · rw [missing,listed,none_there]
      rfl
  by_cases all : (db.note_rows source_id).all note_reads = true
  · have bodies : s.noted key = some ((db.note_rows source_id).map NoteRow.body) := by rw [noted,listed,if_pos all]
    have listing : list_notes_for_item source_id db = .ok (db.note_rows source_id) db := by
      rw [list_notes_for_item,get_bind,if_pos all]
      rfl
    by_cases old : (db.note_rows source_id).any (fun note => note.body = n.body) = true
    · have inside : n.body ∈ (db.note_rows source_id).map NoteRow.body := by simpa [List.any_eq_true] using old
      refine .of_eq (y := pure stats) (t := db) ?_ (.pure ⟨s,Requests.remark_found bodies inside,
        ⟨fresh,indexed,clock,shelf,met,sources,counts⟩,.nothing real db _⟩)
      rw [import_note,work_bind,listing]
      dsimp only
      rw [if_pos old]
    · have outside : n.body ∉ (db.note_rows source_id).map NoteRow.body := by simpa [List.any_eq_true] using old
      cases real with
      | false =>
        refine .of_eq (y := pure { stats with notes_created := stats.notes_created + 1 }) (t := db) ?_ (.pure ⟨_,
          Requests.remark_made bodies outside,⟨fresh,indexed,clock,shelf,met,sources,by rw [counts]; rfl⟩,
            .dry_made (.refl db) (by simp only [Requests.Counts.made]; omega)⟩)
        rw [import_note,work_bind,listing]
        dsimp only
        rw [if_neg old,if_pos (Bool.not_false)]
      | true =>
        obtain ⟨row,found,rfl⟩ : ∃ row, db.library.item_row key = some row ∧ row.id = source_id :=
          (sources key source_id looked).resolve_right (fun never => absurd never.1 (by simp))
        have steps : import_note (!true) row.id stats n db =
            (insert_note ⟨db.library.uuids 0,row.id,n.body,fmt_time (n.created.getD db.library.now),fmt_time db.library.now⟩ >>= fun _ =>
              pure { stats with notes_created := stats.notes_created + 1 }) { db with library := db.library.after_draw } := by
          rw [import_note,work_bind,listing]
          dsimp only
          rw [if_neg old,if_neg (by simp),get_bind,work_bind,on_library_ok db new_v4_eq]
        have note := insert_note_does fresh (item_row_has found) n.body (fmt_time (n.created.getD db.library.now)) (fmt_time db.library.now)
        refine .of_eq steps ((note.mono (fun _ _ done => done) (fun _ => False.elim)).bind ?_)
        rintro _ db' ⟨library,notes,grown⟩
        have items : db'.library.content_items = db.library.content_items := by
          rw [library]
          rfl
        refine .pure ⟨_,Requests.remark_made bodies outside,⟨fresh.grown grown,grown.library.indexed indexed,grown.library.clock.trans clock,?_,
          met,?_,by rw [counts]; rfl⟩,.made grown (by simp only [Requests.Counts.made]; omega)⟩
        · have lists : db.listed row.id = some ((db.note_rows row.id).map NoteRow.body) := by rw [listed,if_pos all]
          rw [shelf_note indexed items notes found rfl lists,shelf,← clock]
          rfl
        · intro k id there
          rcases sources k id there with ⟨row,held,same⟩ | ⟨never,-,-⟩
          · exact .inl ⟨row,grown.library.item_row held,same⟩
          · cases never
  · have unread : s.noted key = none := by rw [noted,listed,if_neg all]
    refine .of_eq (y := throw .panic) (t := db) ?_ (.throw ⟨Requests.step_remark_none.mpr unread,.refl real db⟩)
    have listing : list_notes_for_item source_id db = .error .panic db := by
      rw [list_notes_for_item,get_bind,if_neg all]
      rfl
    rw [import_note,work_bind,listing]
    rfl

/-- An entry in three parts. -/
theorem import_entry_parts (dry_run enable_review : Bool) (acc : SourceCache × HighlightImportStats) (e : EntryWanted) :
    import_entry dry_run enable_review acc e = on_library (import_source dry_run acc.1 acc.2 e.source) >>= fun r =>
      (match e.highlight with
        | some h => import_highlight dry_run enable_review r.1 r.2.2 h
        | none => pure r.2.2) >>= fun stats =>
      (match e.note with
        | some n => import_note dry_run r.1 stats n
        | none => pure stats) >>= fun stats => pure (r.2.1,stats) := by
  obtain ⟨source,highlight,note⟩ := e
  cases highlight <;> cases note <;> rfl

/-- An entry, as it is requested. -/
theorem import_entry_tracks (tracks : Tracks real enable_review now db cache stats s) (e : EntryWanted) :
    Does (import_entry (!real) enable_review (cache,stats) e) db
      (fun r db' => ∃ s', Requests.run real s (requests now e) = some s' ∧
        Tracks real enable_review now db' r.1 r.2 s' ∧ Wrote real db db' s.counts.made s'.counts.made)
      (fun db' => Requests.run real s (requests now e) = none ∧ Left real db db') := by
  have first := import_source_tracks tracks e.source
  rw [import_entry_parts]
  refine (first.mono (fun _ _ done => done) ?_).bind ?_
  · rintro db' ⟨ends,left⟩
    refine ⟨?_,left⟩
    rw [requests,Requests.run_cons,ends]
    rfl
  rintro ⟨source_id,cache',stats'⟩ db' ⟨s',step,tracks',looked,wrote⟩
  have opened (rest : List (Requests.Request String String)) :
      Requests.run real s (.source e.source.url (stored_reads now e.source.created) :: rest) = Requests.run real s' rest := by
    rw [Requests.run_cons,step,Option.bind_some]
  rw [requests,opened]
  have second : Does (match e.highlight with
      | some h => import_highlight (!real) enable_review source_id stats' h
      | none => pure stats') db'
      (fun stats'' db'' => ∃ s'', Requests.run real s' ((e.highlight.map (fun h => .entry h.url (stored_reads now h.created))).toList) = some s'' ∧
        Tracks real enable_review now db'' cache' stats'' s'' ∧ Wrote real db' db'' s'.counts.made s''.counts.made)
      (fun db'' => Requests.run real s' ((e.highlight.map (fun h => .entry h.url (stored_reads now h.created))).toList) = none ∧ Left real db' db'') := by
    cases e.highlight with
    | none => exact .pure ⟨s',rfl,tracks',.nothing real db' _⟩
    | some h =>
      have there : real → db'.library.has_item source_id := by
        intro is_real
        rcases tracks'.sources _ _ looked with ⟨row,found,rfl⟩ | ⟨never,-,-⟩
        · exact item_row_has found
        · cases is_real.symm.trans never
      simp only [Option.map_some,Option.toList_some,Requests.run_one]
      exact import_highlight_tracks tracks' there h
  refine (second.mono (fun _ _ done => done) ?_).bind ?_
  · rintro last ⟨ends,left⟩
    rw [Requests.run_append,ends]
    exact ⟨rfl,wrote.left left⟩
  rintro stats'' db'' ⟨s'',ran,tracks'',wrote'⟩
  have third : Does (match e.note with
      | some n => import_note (!real) source_id stats'' n
      | none => pure stats'') db''
      (fun last db3 => ∃ s3, Requests.run real s'' ((e.note.map (fun n => .remark e.source.url n.body (stored_reads now n.created))).toList) = some s3 ∧
        Tracks real enable_review now db3 cache' last s3 ∧ Wrote real db'' db3 s''.counts.made s3.counts.made)
      (fun db3 => Requests.run real s'' ((e.note.map (fun n => .remark e.source.url n.body (stored_reads now n.created))).toList) = none ∧ Left real db'' db3) := by
    cases e.note with
    | none => exact .pure ⟨s'',rfl,tracks'',.nothing real db'' _⟩
    | some n =>
      simp only [Option.map_some,Option.toList_some,Requests.run_one]
      exact import_note_tracks tracks'' looked n
  refine (third.mono (fun _ _ done => done) ?_).bind ?_
  · rintro last ⟨ends,left⟩
    rw [Requests.run_append,ran]
    exact ⟨ends,(wrote.trans wrote').left left⟩
  rintro last db3 ⟨s3,ran',tracks3,wrote3⟩
  refine .pure ⟨s3,?_,tracks3,(wrote.trans wrote').trans wrote3⟩
  rw [Requests.run_append,ran]
  exact ran'

/-- A list of entries, as they are requested. -/
theorem import_entries_tracks (tracks : Tracks real enable_review now db cache stats s) (entries : List EntryWanted) :
    Does (entries.foldlM (import_entry (!real) enable_review) (cache,stats)) db
      (fun r db' => ∃ s', Requests.run real s (entries.flatMap (requests now)) = some s' ∧
        Tracks real enable_review now db' r.1 r.2 s' ∧ Wrote real db db' s.counts.made s'.counts.made)
      (fun db' => Requests.run real s (entries.flatMap (requests now)) = none ∧ Left real db db') := by
  induction entries generalizing db cache stats s with
  | nil => exact .pure ⟨s,rfl,tracks,.nothing real db _⟩
  | cons e rest ih =>
    rw [List.foldlM_cons,List.flatMap_cons,Requests.run_append]
    refine ((import_entry_tracks tracks e).mono (fun _ _ done => done) ?_).bind ?_
    · rintro db' ⟨ends,left⟩
      rw [ends]
      exact ⟨rfl,left⟩
    rintro ⟨cache',stats'⟩ db' ⟨s',ran,tracks',wrote⟩
    rw [ran]
    refine (ih tracks').mono ?_ ?_
    · rintro r last ⟨s'',ran',tracks'',wrote'⟩
      exact ⟨s'',ran',tracks'',wrote.trans wrote'⟩
    · rintro last ⟨ends,left⟩
      exact ⟨ends,wrote.left left⟩

end

/-! ### Imports of highlights -/

section
variable {db db' : ImportDb}

/-- An import that is real is recorded, and nothing else. -/
theorem record_import_log_does (source : ImportSource) (path : String) (added existing skipped errors : ℕ) (detail : Option String)
    (dry_run : Bool) (db : ImportDb) : Does (record_import_log source path added existing skipped errors detail dry_run) db
      (fun _ db' => Kept db db' ∧ (dry_run = true → Untouched db db')) (fun _ => False) := by
  cases dry_run with
  | true => exact .pure ⟨(Still.refl db).kept,fun _ => .refl db⟩
  | false =>
    have drawn : Library.Still db.library db.library.after_draw := ⟨rfl,1,rfl⟩
    unfold Does record_import_log
    rw [if_neg Bool.false_ne_true,work_bind,on_library_ok db new_v4_eq]
    dsimp only
    rw [work_catch,run]
    dsimp only
    by_cases taken : db.import_log.any (fun entry => entry.id = db.library.uuids 0) = true
    · simp only [if_pos taken]
      exact ⟨⟨drawn,rfl,rfl⟩,nofun⟩
    · simp only [if_neg taken]
      exact ⟨⟨drawn,rfl,rfl⟩,nofun⟩

omit [TimeCrate] in
/-- What a transaction that fails leaves. -/
theorem in_transaction_does {α : Type} {work : Importing α} {ok : α → ImportDb → Prop} {bad : Prop}
    (does : Does work db ok (fun db' => bad ∧ Grown db db')) : Does (in_transaction work) db ok (fun db' => bad ∧ Untouched db db') := by
  unfold Does in_transaction at *
  cases ran : work db with
  | ok a db' => rwa [ran] at does
  | error e db' =>
    rw [ran] at does
    obtain ⟨k,uuids,-⟩ := does.2.library.draws
    exact ⟨does.1,k,by rw [uuids]⟩

/-- An import of highlights reports what its requests make of the shelf. -/
theorem import_highlights_does (fresh : db.Fresh) (indexed : db.library.Indexed) (source : ImportSource) (real enable_review : Bool)
    (path : String) (entries : List EntryWanted) : Does (import_highlights source (!real) enable_review path entries) db
      (fun stats db' => ∃ s', Requests.run real ⟨db.shelf,[],.zero⟩ (entries.flatMap (requests db.library.now)) = some s' ∧
        stats = stats_of real enable_review s'.counts ∧ db'.shelf = s'.toShelf ∧ Grown db db' ∧
        (s'.counts.made = 0 → Kept db db') ∧ (real = false → Untouched db db'))
      (fun db' => Requests.run real ⟨db.shelf,[],.zero⟩ (entries.flatMap (requests db.library.now)) = none ∧ Untouched db db') := by
  have start : Tracks real enable_review db.library.now db [] ⟨0,0,0,0,0,0⟩ ⟨db.shelf,[],.zero⟩ :=
    ⟨fresh,indexed,rfl,rfl,by simp,nofun,by simp [stats_of,Requests.Counts.zero]⟩
  have loop := import_entries_tracks start entries
  have whole : Does (if (!real) = true then entries.foldlM (import_entry (!real) enable_review) ([],⟨0,0,0,0,0,0⟩)
      else in_transaction (entries.foldlM (import_entry (!real) enable_review) ([],⟨0,0,0,0,0,0⟩))) db
      (fun r db' => ∃ s', Requests.run real ⟨db.shelf,[],.zero⟩ (entries.flatMap (requests db.library.now)) = some s' ∧
        Tracks real enable_review db.library.now db' r.1 r.2 s' ∧ Wrote real db db' 0 s'.counts.made)
      (fun db' => Requests.run real ⟨db.shelf,[],.zero⟩ (entries.flatMap (requests db.library.now)) = none ∧ Untouched db db') := by
    cases real with
    | false =>
      rw [if_pos (Bool.not_false)]
      exact loop.mono (fun _ _ done => done) (fun _ ended => ⟨ended.1,ended.2.dry rfl⟩)
    | true =>
      rw [if_neg (by simp)]
      exact in_transaction_does (loop.mono (fun _ _ done => done) (fun _ ended => ⟨ended.1,ended.2.grown⟩))
  have parts : import_highlights source (!real) enable_review path entries =
      (if (!real) = true then entries.foldlM (import_entry (!real) enable_review) ([],⟨0,0,0,0,0,0⟩)
        else in_transaction (entries.foldlM (import_entry (!real) enable_review) ([],⟨0,0,0,0,0,0⟩))) >>= fun r =>
      record_import_log source path r.2.highlights_created r.2.highlights_existing 0 0 none (!real) >>= fun _ => pure r.2 := by
    cases real <;> rfl
  rw [parts]
  refine whole.bind ?_
  rintro ⟨cache,stats⟩ db' ⟨s',ran,tracks,wrote⟩
  refine ((record_import_log_does source path stats.highlights_created stats.highlights_existing 0 0 none (!real) db').mono
    (fun _ _ done => done) (fun _ => False.elim)).bind ?_
  rintro _ last ⟨kept,untouched⟩
  refine .pure ⟨s',ran,tracks.counts,?_,wrote.grown.trans kept.grown,?_,?_⟩
  · exact (shelf_same (by rw [kept.library.frame]) kept.notes).trans tracks.shelf
  · exact fun none_made => (wrote.still none_made).kept.trans kept
  · exact fun dry => (wrote.dry dry).trans (untouched (by rw [dry]; rfl))

/-- Tables go on when highlights are imported, whether or not this is a dry run. -/
theorem import_highlights_grown (fresh : db.Fresh) (indexed : db.library.Indexed) (source : ImportSource) (dry_run enable_review : Bool)
    (path : String) (entries : List EntryWanted) : Grown db (leaves (import_highlights source dry_run enable_review path entries db)) := by
  have does := import_highlights_does fresh indexed source (!dry_run) enable_review path entries
  rw [Bool.not_not] at does
  rcases does.left with ⟨_,_,-,-,-,grown,-⟩ | ⟨-,untouched⟩
  · exact grown
  · exact untouched.still.grown

/-- A dry run over highlights changes nothing. -/
theorem import_highlights_dry (fresh : db.Fresh) (indexed : db.library.Indexed) (source : ImportSource) (enable_review : Bool)
    (path : String) (entries : List EntryWanted) : Untouched db (leaves (import_highlights source true enable_review path entries db)) := by
  have does := import_highlights_does fresh indexed source false enable_review path entries
  rw [Bool.not_false] at does
  rcases does.left with ⟨_,_,-,-,-,-,-,untouched⟩ | ⟨-,untouched⟩
  · exact untouched rfl
  · exact untouched

/-- The requests that a list of entries makes. -/
def wanted (now : OffsetDateTime) (entries : List EntryWanted) : List (Requests.Request String String) := entries.flatMap (requests now)

theorem import_highlights_reported (fresh : db.Fresh) (indexed : db.library.Indexed) (source : ImportSource) (real enable_review : Bool)
    (path : String) (entries : List EntryWanted) : reported (import_highlights source (!real) enable_review path entries db) =
      (Requests.report real db.shelf (wanted db.library.now entries)).map (stats_of real enable_review) := by
  refine (import_highlights_does fresh indexed source real enable_review path entries).reported ?_ ?_
  · rintro stats db' ⟨s',ran,rfl,-⟩
    rw [Requests.report,wanted,ran]
    rfl
  · rintro db' ⟨ends,-⟩
    rw [Requests.report,wanted,ends]
    rfl

/-- A dry run over highlights reports what the real run reports iff both end at an item or a note that
    cannot be read, or no entry meets what one before it makes and no review card is made. -/
theorem import_highlights_foretold (fresh : db.Fresh) (indexed : db.library.Indexed) (source : ImportSource) (enable_review : Bool)
    (path : String) (entries : List EntryWanted) :
    reported (import_highlights source true enable_review path entries db) = reported (import_highlights source false enable_review path entries db) ↔
      (∃ a ∈ wanted db.library.now entries, db.shelf.Unreadable a) ∨ db.shelf.Apart [] (wanted db.library.now entries) ∧
        (enable_review = true → ∀ a ∈ wanted db.library.now entries, ¬ db.shelf.New a) := by
  have dry := import_highlights_reported fresh indexed source false enable_review path entries
  have real := import_highlights_reported fresh indexed source true enable_review path entries
  rw [Bool.not_false] at dry
  rw [Bool.not_true] at real
  rw [dry,real]
  generalize wanted db.library.now entries = asked
  have both := Requests.rehearsal_iff db.shelf asked
  by_cases unreadable : ∃ a ∈ asked, db.shelf.Unreadable a
  · have ends (real : Bool) : Requests.report real db.shelf asked = none := Requests.report_none unreadable
    rw [ends,ends]
    exact iff_of_true rfl (.inl unreadable)
  · rw [or_iff_right unreadable] at both ⊢
    obtain ⟨last,ran⟩ := Requests.rehearsal_total (d := ⟨db.shelf,[],.zero⟩) rfl (fun a inside there => unreadable ⟨a,inside,there⟩)
    have none_new := (Requests.no_new_iff (d := ⟨db.shelf,[],.zero⟩) rfl ran).2
    have counted : Requests.report false db.shelf asked = some last.counts := by rw [Requests.report,ran]; rfl
    rw [counted] at both ⊢
    rw [← both,← none_new]
    constructor
    · intro same
      obtain ⟨c,reports,equal⟩ := Option.map_eq_some_iff.mp same.symm
      obtain ⟨rfl,cards⟩ := stats_of_eq.mp equal
      exact ⟨reports,cards⟩
    · rintro ⟨same,cards⟩
      rw [same,Option.map_some,Option.map_some,stats_of_eq.mpr ⟨rfl,cards⟩]

/-- What an import leaves, it leaves again, and then no two items share a url. -/
structure Repeats {α : Type} (work : Importing α) (db : ImportDb) : Prop where
  kept : Kept (leaves (work db)) (leaves (work (leaves (work db))))
  first : (leaves (work db)).library.Indexed
  second : (leaves (work (leaves (work db)))).library.Indexed

omit [TimeCrate] in
theorem Kept.repeats {α : Type} {work : Importing α} (grown : Grown db (leaves (work db))) (indexed : db.library.Indexed)
    (kept : Kept (leaves (work db)) (leaves (work (leaves (work db))))) : Repeats work db :=
  ⟨kept,grown.library.indexed indexed,kept.grown.library.indexed (grown.library.indexed indexed)⟩

/-- Highlights that are imported again are all there. -/
theorem import_highlights_repeats (fresh : db.Fresh) (indexed : db.library.Indexed) (source : ImportSource) (enable_review : Bool)
    (path : String) (entries : List EntryWanted) : Repeats (import_highlights source false enable_review path entries) db := by
  have first := import_highlights_does fresh indexed source true enable_review path entries
  rw [Bool.not_true] at first
  rcases first.left with ⟨stats,s',ran,-,shelf,grown,-,-⟩ | ⟨ends,untouched⟩
  · have second := import_highlights_does (fresh.grown grown) (grown.library.indexed indexed) source true enable_review path entries
    rw [Bool.not_true,shelf,grown.library.clock] at second
    refine Kept.repeats grown indexed ?_
    rcases second.left with ⟨_,s'',ran',-,-,-,kept,-⟩ | ⟨-,untouched⟩
    · exact kept (Requests.repeated ran ran')
    · exact untouched.still.kept
  · have still := untouched.still
    have grown := still.grown
    have second := import_highlights_does (fresh.grown grown) (grown.library.indexed indexed) source true enable_review path entries
    rw [Bool.not_true,shelf_same (by rw [still.library.frame]) still.notes,grown.library.clock,ends] at second
    refine Kept.repeats grown indexed ?_
    rcases second.left with ⟨_,s'',never,-⟩ | ⟨-,untouched'⟩
    · cases never
    · exact untouched'.still.kept

/-! ### Imports of bookmarks -/

section
variable [UrlCrate] [Unicode]

/-- The bookmarks are settled, up to one that cannot be read. -/
def SettledUpTo (lib : Library) : List Bookmark → Prop
  | [] => True
  | b :: rest => lib.held b.key = some false ∨ lib.Settled b ∧ SettledUpTo lib rest

omit [UrlCrate] [Unicode] in
theorem held_grown {lib lib' : Library} {url : String} {b : Bool} (grown : Library.Grown lib lib') (there : lib.held url = some b) :
    lib'.held url = some b := by
  obtain ⟨row,found,reads⟩ := Option.map_eq_some_iff.mp there
  rw [held,grown.item_row found,Option.map_some,reads]

theorem SettledUpTo.grown {lib lib' : Library} {bookmarks : List Bookmark} (settled : SettledUpTo lib bookmarks)
    (grown : Library.Grown lib lib') : SettledUpTo lib' bookmarks := by
  induction bookmarks with
  | nil => trivial
  | cons b rest ih => exact settled.imp (held_grown grown) (fun both => ⟨both.1.grown grown,ih both.2⟩)

theorem import_bookmarks_settle {lib : Library} (fresh : lib.Fresh) (stats : BookmarkImportStats) (bookmarks : List Bookmark) :
    Does (bookmarks.foldlM (import_bookmark false) stats) lib (fun _ lib' => Library.Grown lib lib' ∧ SettledUpTo lib' bookmarks)
      (fun lib' => Library.Grown lib lib' ∧ SettledUpTo lib' bookmarks) := by
  induction bookmarks generalizing lib stats with
  | nil => exact .pure ⟨.refl lib,trivial⟩
  | cons b rest ih =>
    rw [List.foldlM_cons]
    refine ((import_bookmark_does fresh stats b).mono (fun _ _ done => done) ?_).bind ?_
    · rintro _ ⟨rfl,unread⟩
      exact ⟨.refl _,.inl unread⟩
    · rintro stats' lib' ⟨grown,settled,-⟩
      have later (last : Library) (done : Library.Grown lib' last ∧ SettledUpTo last rest) :
          Library.Grown lib last ∧ SettledUpTo last (b :: rest) :=
        ⟨grown.trans done.1,.inr ⟨settled.grown done.1,done.2⟩⟩
      exact (ih (fresh.draws grown.draws) stats').mono (fun _ => later) later

/-- Bookmarks that are settled are imported again. -/
theorem import_bookmarks_same {lib : Library} (stats : BookmarkImportStats) {bookmarks : List Bookmark} (settled : SettledUpTo lib bookmarks) :
    Does (bookmarks.foldlM (import_bookmark false) stats) lib (fun _ lib' => Library.Still lib lib') (Library.Still lib) := by
  induction bookmarks generalizing lib stats with
  | nil => exact .pure (.refl lib)
  | cons b rest ih =>
    rw [List.foldlM_cons]
    rcases settled with unread | ⟨settled,later⟩
    · obtain ⟨row,found,reads⟩ := Option.map_eq_some_iff.mp unread
      have stops : Does (import_bookmark false stats b) lib (fun _ _ => False) (Library.Still lib) := by
        refine .of_eq (y := throw .panic) (t := lib) ?_ (.throw (.refl lib))
        rw [import_bookmark,work_bind,get_by_url_panic found (by simpa using reads)]
        rfl
      exact stops.bind (fun _ _ => False.elim)
    · refine (import_bookmark_same settled stats).bind ?_
      intro stats' lib' still
      have rest_settled : SettledUpTo lib' rest := later.grown still.grown
      exact (ih stats' rest_settled).mono (fun _ _ more => still.trans more) (fun _ more => still.trans more)

/-- An import of bookmarks is work on the library, which is recorded. -/
theorem import_bookmarks_parts (source : ImportSource) (dry_run : Bool) (path : String) (bookmarks : List Bookmark) :
    import_bookmarks source dry_run path bookmarks = on_library (bookmarks.foldlM (import_bookmark dry_run) ⟨0,0⟩) >>= fun stats =>
      record_import_log source path stats.created stats.existing 0 0 none dry_run >>= fun _ => pure stats := rfl

omit [UrlCrate] [Unicode] in
/-- What is recorded afterwards does not count. -/
theorem recorded_does {α : Type} {work : Importing α} {ok : ImportDb → Prop} {bad : ImportDb → Prop} (does : Does work db (fun _ => ok) bad)
    (source : ImportSource) (dry_run : Bool) (path : String) (added existing : α → ℕ) :
    Does (work >>= fun stats => record_import_log source path (added stats) (existing stats) 0 0 none dry_run >>= fun _ => pure stats) db
      (fun _ db' => ∃ mid, ok mid ∧ Kept mid db') bad := by
  refine does.bind ?_
  intro stats mid done
  refine ((record_import_log_does source path (added stats) (existing stats) 0 0 none dry_run mid).mono (fun _ _ done => done)
    (fun _ => False.elim)).bind ?_
  rintro _ last ⟨kept,-⟩
  exact .pure ⟨mid,done,kept⟩

/-- Bookmarks are settled when they were imported, up to one that cannot be read. -/
theorem import_bookmarks_settled (fresh : db.Fresh) (source : ImportSource) (path : String) (bookmarks : List Bookmark) :
    Grown db (leaves (import_bookmarks source false path bookmarks db)) ∧
      SettledUpTo (leaves (import_bookmarks source false path bookmarks db)).library bookmarks := by
  have loop : Does (on_library (bookmarks.foldlM (import_bookmark false) ⟨0,0⟩)) db
      (fun _ db' => Grown db db' ∧ SettledUpTo db'.library bookmarks) (fun db' => Grown db db' ∧ SettledUpTo db'.library bookmarks) := by
    refine (on_library_does db (import_bookmarks_settle fresh.library ⟨0,0⟩ bookmarks)).mono ?_ ?_
    · rintro _ _ ⟨lib,⟨grown,settled⟩,rfl⟩
      exact ⟨.of_library db grown,settled⟩
    · rintro _ ⟨lib,⟨grown,settled⟩,rfl⟩
      exact ⟨.of_library db grown,settled⟩
  have whole : Does (import_bookmarks source false path bookmarks) db
      (fun _ db' => Grown db db' ∧ SettledUpTo db'.library bookmarks) (fun db' => Grown db db' ∧ SettledUpTo db'.library bookmarks) := by
    refine (recorded_does loop source false path _ _).mono ?_ (fun _ done => done)
    rintro _ last ⟨mid,⟨grown,settled⟩,kept⟩
    exact ⟨grown.trans kept.grown,settled.grown kept.library.grown⟩
  exact whole.leaves

/-- Bookmarks that are imported again are all there. -/
theorem import_bookmarks_repeats (fresh : db.Fresh) (indexed : db.library.Indexed) (source : ImportSource) (path : String)
    (bookmarks : List Bookmark) : Repeats (import_bookmarks source false path bookmarks) db := by
  obtain ⟨grown,settled⟩ := import_bookmarks_settled fresh source path bookmarks
  refine Kept.repeats grown indexed ?_
  generalize leaves (import_bookmarks source false path bookmarks db) = db' at settled
  have again : Does (on_library (bookmarks.foldlM (import_bookmark false) ⟨0,0⟩)) db' (fun _ => Kept db') (Kept db') := by
    refine (on_library_does db' (import_bookmarks_same ⟨0,0⟩ settled)).mono ?_ ?_
    · rintro _ _ ⟨lib,still,rfl⟩
      exact (Still.of_library still).kept
    · rintro _ ⟨lib,still,rfl⟩
      exact (Still.of_library still).kept
  have whole : Does (import_bookmarks source false path bookmarks) db' (fun _ => Kept db') (Kept db') := by
    refine (recorded_does again source false path _ _).mono ?_ (fun _ kept => kept)
    rintro _ last ⟨mid,kept,more⟩
    exact kept.trans more
  exact whole.leaves

/-- What a bookmark asks for. -/
def marking (now : OffsetDateTime) (b : Bookmark) : Requests.Request String String := .entry b.key (stored_reads now b.created)

/-- What a library shows to bookmarks, which have no notes. -/
def marked (lib : Library) : Requests.Shelf String String := ⟨lib.held,fun _ => none⟩

/-- A loop over bookmarks that goes as requests go. -/
structure Marks (real : Bool) (now : OffsetDateTime) (first lib : Library) (stats : BookmarkImportStats) (s : Requests.Run String String) :
    Prop where
  fresh : lib.Fresh
  clock : lib.now = now
  shelf : marked lib = s.toShelf
  counts : stats = ⟨s.counts.entries_created,s.counts.entries_existing⟩
  still : real = false → lib = first

theorem import_bookmark_marks {real : Bool} {now : OffsetDateTime} {first lib : Library} {stats : BookmarkImportStats}
    {s : Requests.Run String String} (marks : Marks real now first lib stats s) (b : Bookmark) :
    Does (import_bookmark (!real) stats b) lib
      (fun stats' lib' => ∃ s', Requests.step real s (marking now b) = some s' ∧ Marks real now first lib' stats' s')
      (fun lib' => Requests.step real s (marking now b) = none ∧ lib' = lib) := by
  obtain ⟨fresh,clock,shelf,counts,still⟩ := marks
  have held : s.held = lib.held := by rw [← shelf]; rfl
  cases real with
  | false =>
    refine (import_bookmark_dry stats b).mono ?_ ?_
    · rintro stats' _ ⟨rfl,⟨there,rfl⟩ | ⟨missing,rfl⟩⟩
      · exact ⟨_,Requests.entry_found (by rw [held,there]),fresh,clock,shelf,by rw [counts],still⟩
      · exact ⟨_,Requests.entry_made (by rw [held,missing]),fresh,clock,shelf,by rw [counts],still⟩
    · rintro _ ⟨rfl,unread⟩
      exact ⟨Requests.step_entry_none.mpr (by rw [held,unread]),rfl⟩
  | true =>
    refine (import_bookmark_does fresh stats b).mono ?_ ?_
    · rintro stats' lib' ⟨grown,-,⟨there,same,rfl⟩ | ⟨missing,made,rfl⟩⟩
      · refine ⟨_,Requests.entry_found (by rw [held,there]),fresh.draws grown.draws,grown.clock.trans clock,?_,by rw [counts],nofun⟩
        have same_shelf : marked lib' = marked lib := by rw [marked,marked,same]
        exact same_shelf.trans shelf
      · refine ⟨_,Requests.entry_made (by rw [held,missing]),fresh.draws grown.draws,grown.clock.trans clock,?_,by rw [counts],nofun⟩
        have noted : s.noted = fun _ => none := by
          rw [← shelf]
          rfl
        refine Requests.Shelf.ext ?_ noted.symm
        change lib'.held = Function.update s.held b.key _
        rw [made,held,clock]
    · rintro _ ⟨rfl,unread⟩
      exact ⟨Requests.step_entry_none.mpr (by rw [held,unread]),rfl⟩

theorem import_bookmarks_marks {real : Bool} {now : OffsetDateTime} {first lib : Library} {stats : BookmarkImportStats}
    {s : Requests.Run String String} (marks : Marks real now first lib stats s) (bookmarks : List Bookmark) :
    Does (bookmarks.foldlM (import_bookmark (!real)) stats) lib
      (fun stats' lib' => ∃ s', Requests.run real s (bookmarks.map (marking now)) = some s' ∧ Marks real now first lib' stats' s')
      (fun lib' => Requests.run real s (bookmarks.map (marking now)) = none ∧ (real = false → lib' = first)) := by
  induction bookmarks generalizing lib stats s with
  | nil => exact .pure ⟨s,rfl,marks⟩
  | cons b rest ih =>
    rw [List.foldlM_cons,List.map_cons,Requests.run_cons]
    refine ((import_bookmark_marks marks b).mono (fun _ _ done => done) ?_).bind ?_
    · rintro _ ⟨ends,rfl⟩
      rw [ends]
      exact ⟨rfl,marks.still⟩
    · rintro stats' lib' ⟨s',step,marks'⟩
      rw [step]
      exact ih marks'

/-- An import of bookmarks reports what its requests make of the library. -/
theorem import_bookmarks_does (fresh : db.Fresh) (source : ImportSource) (real : Bool) (path : String) (bookmarks : List Bookmark) :
    Does (import_bookmarks source (!real) path bookmarks) db
      (fun stats db' => (∃ c, Requests.report real (marked db.library) (bookmarks.map (marking db.library.now)) = some c ∧
        stats = ⟨c.entries_created,c.entries_existing⟩) ∧ (real = false → db' = db))
      (fun db' => Requests.report real (marked db.library) (bookmarks.map (marking db.library.now)) = none ∧ (real = false → db' = db)) := by
  have start : Marks real db.library.now db.library db.library ⟨0,0⟩ ⟨marked db.library,[],.zero⟩ := ⟨fresh.library,rfl,rfl,rfl,fun _ => rfl⟩
  rw [import_bookmarks_parts]
  refine ((on_library_does db (import_bookmarks_marks start bookmarks)).mono (fun _ _ done => done) ?_).bind ?_
  · rintro _ ⟨lib,⟨ends,still⟩,rfl⟩
    rw [Requests.report,ends]
    exact ⟨rfl,fun dry => by rw [still dry]⟩
  · rintro stats _ ⟨lib,⟨s',ran,marks⟩,rfl⟩
    have recorded : Does (record_import_log source path stats.created stats.existing 0 0 none (!real)) { db with library := lib }
        (fun _ db' => real = false → db' = { db with library := lib }) (fun _ => False) := by
      cases real with
      | false => exact .pure (fun _ => rfl)
      | true =>
        exact (record_import_log_does source path stats.created stats.existing 0 0 none false { db with library := lib }).mono
          (fun _ _ _ dry => absurd dry (by decide)) (fun _ => False.elim)
    refine (recorded.mono (fun _ _ done => done) (fun _ => False.elim)).bind ?_
    intro _ last same
    refine .pure ⟨⟨s'.counts,by rw [Requests.report,ran]; rfl,marks.counts⟩,?_⟩
    intro dry
    rw [same dry,marks.still dry]

theorem import_bookmarks_reported (fresh : db.Fresh) (source : ImportSource) (real : Bool) (path : String) (bookmarks : List Bookmark) :
    reported (import_bookmarks source (!real) path bookmarks db) =
      (Requests.report real (marked db.library) (bookmarks.map (marking db.library.now))).map (fun c => ⟨c.entries_created,c.entries_existing⟩) := by
  refine (import_bookmarks_does fresh source real path bookmarks).reported ?_ ?_
  · rintro stats db' ⟨⟨c,reports,rfl⟩,-⟩
    rw [reports]
    rfl
  · rintro db' ⟨ends,-⟩
    rw [ends]
    rfl

/-- A dry run over bookmarks changes nothing. -/
theorem import_bookmarks_dry (fresh : db.Fresh) (source : ImportSource) (path : String) (bookmarks : List Bookmark) :
    leaves (import_bookmarks source true path bookmarks db) = db := by
  have does := import_bookmarks_does fresh source false path bookmarks
  rw [Bool.not_false] at does
  rcases does.left with ⟨_,-,still⟩ | ⟨-,still⟩
  · exact still rfl
  · exact still rfl

/-- Tables go on when bookmarks are imported, whether or not this is a dry run. -/
theorem import_bookmarks_grown (fresh : db.Fresh) (source : ImportSource) (dry_run : Bool) (path : String) (bookmarks : List Bookmark) :
    Grown db (leaves (import_bookmarks source dry_run path bookmarks db)) := by
  cases dry_run with
  | false => exact (import_bookmarks_settled fresh source path bookmarks).1
  | true =>
    rw [import_bookmarks_dry fresh]
    exact .refl db

/-- A dry run over bookmarks reports what the real run reports iff both end at an item that cannot be
    read, or no new url is listed twice. -/
theorem import_bookmarks_foretold (fresh : db.Fresh) (source : ImportSource) (path : String) (bookmarks : List Bookmark) :
    reported (import_bookmarks source true path bookmarks db) = reported (import_bookmarks source false path bookmarks db) ↔
      (∃ b ∈ bookmarks, db.library.held b.key = some false) ∨
        (bookmarks.filter (fun b => db.library.held b.key = none)).Pairwise (fun b b' => b.key ≠ b'.key) := by
  have dry := import_bookmarks_reported fresh source false path bookmarks
  have real := import_bookmarks_reported fresh source true path bookmarks
  rw [Bool.not_false] at dry
  rw [Bool.not_true] at real
  have entries : bookmarks.map (marking db.library.now) =
      bookmarks.map (fun b => Requests.Request.entry b.key (stored_reads db.library.now b.created)) := rfl
  have only (real : Bool) (c : Requests.Counts) (reports : Requests.report real (marked db.library) (bookmarks.map (marking db.library.now)) = some c) :
      c = ⟨0,0,c.entries_created,c.entries_existing,0⟩ := by
    obtain ⟨last,ran,rfl⟩ := Option.map_eq_some_iff.mp reports
    exact Requests.entries_count _ _ ran
  have same : reported (import_bookmarks source true path bookmarks db) = reported (import_bookmarks source false path bookmarks db) ↔
      Requests.report true (marked db.library) (bookmarks.map (marking db.library.now)) =
        Requests.report false (marked db.library) (bookmarks.map (marking db.library.now)) := by
    rw [dry,real]
    cases counted : Requests.report false (marked db.library) (bookmarks.map (marking db.library.now)) with
    | none =>
      rw [Option.map_none,eq_comm,Option.map_eq_none_iff]
    | some c =>
      rw [Option.map_some,eq_comm,Option.map_eq_some_iff]
      constructor
      · rintro ⟨c',counted',equal⟩
        rw [counted',only true c' counted',only false c counted]
        simpa using equal
      · intro counted'
        exact ⟨c,counted',rfl⟩
  rw [same,Requests.rehearsal_iff,entries,Requests.apart_entries]
  have none_past (b : Bookmark) : ¬ (Requests.Listed ([] : List (Requests.Request String String)) b.key ∨ Requests.Sought ([] : List (Requests.Request String String)) b.key) := by
    simp [Requests.Listed,Requests.Sought]
  simp only [none_past,not_false_eq_true,implies_true,true_and,List.mem_map,exists_exists_and_eq_and]
  exact Iff.rfl

end
end
end
end ImportDb
end Pergamon
