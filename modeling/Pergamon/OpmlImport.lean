import Mathlib.Algebra.Order.BigOperators.Group.List
import Mathlib.Logic.Equiv.Basic
import Pergamon.Subscriptions

/-!
What the two OPML importers make of one forest. Both follow one walk, which records what it finds at
each outline (`reach`), so both succeed and leave the same tables but for the ids that they draw.
Their counts of folders differ from what was found: the server counts every folder as existing, and
the command line counts a folder as new if it has never been changed. So both counts are right iff
all folders were there before and have been changed since they were made (`import_iff`).
-/
namespace Pergamon
open Fallible OrderedTree

namespace FeedTables

/-! ### Sound tables -/

/-- The ids that the tables mention. -/
def mentioned (db : FeedTables) : List String :=
  db.feed_folders.flatMap (fun row => row.id :: row.parent_id.toList) ++
    db.feeds.flatMap (fun row => row.id :: row.folder_id.toList)

/-- Stored times can be read, and so can times that are stored now; the ids that are drawn next are
    new, and all different. -/
structure Sound [TimeCrate] (db : FeedTables) : Prop where
  folders_read : ∀ row ∈ db.feed_folders, (row_to_feed_folder row).isSome
  feeds_read : ∀ row ∈ db.feeds, (row_to_feed row).isSome
  now_reads : (TimeCrate.parse_rfc3339 (fmt_time db.now)).isSome
  change_reads : (TimeCrate.parse_rfc3339 (TimeCrate.strftime db.now)).isSome
  fresh : ∀ n, db.uuids n ∉ db.mentioned
  distinct : Function.Injective db.uuids

/-- The ids that are drawn next are new, and all different. -/
structure Fresh (db : FeedTables) : Prop where
  new : ∀ n, db.uuids n ∉ db.mentioned
  once : Function.Injective db.uuids

/-! ### What is found -/

/-- What an importer finds at a named folder or at a feed. -/
inductive Reached where
  | Folder (found : Option FolderRow)
  | FeedAdded
  | FeedExisting
  | FeedMoved

section
variable [TimeCrate]

/-- The tables with a new folder. -/
def add_folder (db : FeedTables) (name : String) (parent_id : Option String) : FeedTables :=
  { db with
    feed_folders := db.feed_folders ++ [⟨db.uuids 0,name,parent_id,fmt_time db.now,fmt_time db.now⟩]
    uuids := fun n => db.uuids (n + 1) }

/-- The tables with a new feed. -/
def add_feed (db : FeedTables) (outline : Outline) (url : String) (folder_id : Option String) : FeedTables :=
  { db with
    feeds := db.feeds ++ [⟨db.uuids 0,outline.display_name,url,outline.html_url,none,folder_id,fmt_time db.now,fmt_time db.now⟩]
    uuids := fun n => db.uuids (n + 1) }

/-- The tables with a feed in another folder. -/
def move_feed (db : FeedTables) (feed_id : String) (folder_id : Option String) : FeedTables :=
  { db with feeds := db.feeds.map (fun row =>
      if row.id = feed_id then { row with folder_id := folder_id, updated_at := TimeCrate.strftime db.now } else row) }

def reach_feed (outline : Outline) (parent : Option String) (db : FeedTables) : FeedTables × List Reached :=
  match outline.xml_url with
  | none => (db,[])
  | some url =>
    match db.feed_row url with
    | some row => if row.folder_id = parent then (db,[.FeedExisting]) else (db.move_feed row.id parent,[.FeedMoved])
    | none => (db.add_feed outline url parent,[.FeedAdded])

/-- The tables with a folder, its id, and its row if it was there. -/
def reach_folder (name : String) (parent : Option String) (db : FeedTables) : FeedTables × String × Option FolderRow :=
  match db.folder_row name parent with
  | some row => (db,row.id,some row)
  | none => (db.add_folder name parent,db.uuids 0,none)

mutual
/-- The tables after an outline, and what was found. -/
def reach_outline (parent : Option String) (db : FeedTables) : OpmlOutline → FeedTables × List Reached
  | .node outline children =>
    if outline.is_feed then reach_feed outline parent db
    else if outline.display_name = "" then reach parent db children
    else
      let folder := reach_folder outline.display_name parent db
      let below := reach (some folder.2.1) folder.1 children
      (below.1,.Folder folder.2.2 :: below.2)
/-- The tables after outlines, and what was found. -/
def reach (parent : Option String) (db : FeedTables) : List OpmlOutline → FeedTables × List Reached
  | [] => (db,[])
  | outline :: rest =>
    let first := reach_outline parent db outline
    let later := reach parent first.1 rest
    (later.1,first.2 ++ later.2)
end

/-- The times of a folder are the same instant, as they are until it is changed. -/
def unchanged (row : FolderRow) : Bool :=
  (row_to_feed_folder row).any (fun folder => folder.created_at.nanos = folder.updated_at.nanos)

/-- The feed with a url can be read, if there is one. -/
def feed_reads (db : FeedTables) (url : String) : Bool := (db.feed_row url).all (fun row => (row_to_feed row).isSome)

/-- The folder with a name can be read, if there is one. -/
def folder_reads (db : FeedTables) (name : String) (parent : Option String) : Bool :=
  (db.folder_row name parent).all (fun row => (row_to_feed_folder row).isSome)

mutual
/-- All folders of an outline are there, in rows of a kind. -/
def KnownOutline (kind : FolderRow → Prop) (db : FeedTables) (parent : Option String) : OpmlOutline → Prop
  | .node outline children =>
    if outline.is_feed then True
    else if outline.display_name = "" then Known kind db parent children
    else ∃ row, db.folder_row outline.display_name parent = some row ∧ kind row ∧ Known kind db (some row.id) children
/-- All folders of outlines are there, in rows of a kind. -/
def Known (kind : FolderRow → Prop) (db : FeedTables) (parent : Option String) : List OpmlOutline → Prop
  | [] => True
  | outline :: rest => KnownOutline kind db parent outline ∧ Known kind db parent rest
end

end

/-! ### Counts -/

/-- What was found, counted. -/
def count_feed (stats : ImportStats) : Reached → ImportStats
  | .Folder _ => stats
  | .FeedAdded => { stats with feeds_added := stats.feeds_added + 1 }
  | .FeedExisting => { stats with feeds_existing := stats.feeds_existing + 1 }
  | .FeedMoved => { stats with feeds_moved := stats.feeds_moved + 1 }

/-- The counts as they should be: folders that were missing are created. -/
def count (stats : ImportStats) : Reached → ImportStats
  | .Folder none => { stats with folders_created := stats.folders_created + 1 }
  | .Folder (some _) => { stats with folders_existing := stats.folders_existing + 1 }
  | found => count_feed stats found

/-- The counts of the server. -/
def server_count (stats : ImportStats) : Reached → ImportStats
  | .Folder _ => { stats with folders_existing := stats.folders_existing + 1 }
  | found => count_feed stats found

/-- The counts of the command line. -/
def cli_count [TimeCrate] (stats : ImportStats) : Reached → ImportStats
  | .Folder (some row) =>
    if unchanged row then { stats with folders_created := stats.folders_created + 1 }
    else { stats with folders_existing := stats.folders_existing + 1 }
  | .Folder none => { stats with folders_created := stats.folders_created + 1 }
  | found => count_feed stats found

def no_stats : ImportStats := ⟨0,0,0,0,0⟩

/-- Two ways to count agree iff they agree on all that was found, if the folders created are never
    fewer in one. -/
theorem counts_iff {c c' : ImportStats → Reached → ImportStats} {w w' : Reached → ℕ}
    (weighs : ∀ stats e, (c stats e).folders_created = stats.folders_created + w e)
    (weighs' : ∀ stats e, (c' stats e).folders_created = stats.folders_created + w' e) (le : ∀ e, w e ≤ w' e)
    (same : ∀ e, w e = w' e → ∀ stats, c stats e = c' stats e) (found : List Reached) (stats : ImportStats) :
    found.foldl c stats = found.foldl c' stats ↔ ∀ e ∈ found, w e = w' e := by
  have total (c : ImportStats → Reached → ImportStats) (w : Reached → ℕ)
      (weighs : ∀ stats e, (c stats e).folders_created = stats.folders_created + w e) (found : List Reached) (stats : ImportStats) :
      (found.foldl c stats).folders_created = stats.folders_created + (found.map w).sum := by
    induction found generalizing stats with
    | nil => simp
    | cons e found ih => rw [List.foldl_cons,ih,weighs,List.map_cons,List.sum_cons,add_assoc]
  have sums (found : List Reached) : (found.map w).sum ≤ (found.map w').sum := List.sum_le_sum (fun e _ => le e)
  constructor
  · intro equal
    have created := congrArg ImportStats.folders_created equal
    rw [total c w weighs,total c' w' weighs'] at created
    clear equal
    induction found with
    | nil => simp
    | cons e found ih =>
      simp only [List.map_cons,List.sum_cons] at created
      have first := le e
      have rest := sums found
      intro e' inside
      rcases List.mem_cons.mp inside with rfl | later
      · omega
      · exact ih (by omega) e' later
  · intro all
    induction found generalizing stats with
    | nil => rfl
    | cons e found ih =>
      rw [List.foldl_cons,List.foldl_cons,same e (all e List.mem_cons_self)]
      exact ih _ (fun e' inside => all e' (List.mem_cons_of_mem _ inside))

/-! ### Sound tables stay sound -/

section
variable [TimeCrate] {db : FeedTables} {parent : Option String}

omit [TimeCrate] in
theorem mem_mentioned {id : String} : id ∈ db.mentioned ↔
    (∃ row ∈ db.feed_folders, id = row.id ∨ row.parent_id = some id) ∨ ∃ row ∈ db.feeds, id = row.id ∨ row.folder_id = some id := by
  simp [mentioned,Option.mem_toList]

omit [TimeCrate] in
theorem has_folder_iff : db.has_folder parent ↔ ∀ id ∈ parent, ∃ row ∈ db.feed_folders, row.id = id := by
  cases parent <;> simp [has_folder]

omit [TimeCrate] in
theorem folder_row_some {name : String} {row : FolderRow} (found : db.folder_row name parent = some row) :
    row ∈ db.feed_folders ∧ Library.same_name row.name name ∧ row.parent_id = parent := by
  refine ⟨List.mem_of_find?_eq_some found,?_⟩
  simpa using List.find?_some found

theorem row_to_feed_isSome {row : FeedRow} : (row_to_feed row).isSome ↔ (parse_time_opt row.last_fetched_at).isSome ∧
    (TimeCrate.parse_rfc3339 row.created_at).isSome ∧ (TimeCrate.parse_rfc3339 row.updated_at).isSome := by
  unfold row_to_feed
  cases parse_time_opt row.last_fetched_at <;> cases TimeCrate.parse_rfc3339 row.created_at <;>
    cases TimeCrate.parse_rfc3339 row.updated_at <;> simp

theorem Sound.ids (sound : db.Sound) : db.Fresh := ⟨sound.fresh,sound.distinct⟩

theorem Fresh.add_folder (fresh : db.Fresh) (name : String) (inside : db.has_folder parent) : (db.add_folder name parent).Fresh := by
  refine ⟨?_,?_⟩
  · intro n there
    rw [mem_mentioned] at there
    have new := fresh.new (n + 1)
    rw [mem_mentioned] at new
    rcases there with ⟨row,there,same⟩ | feed
    · rcases List.mem_append.mp there with old | added
      · exact new (Or.inl ⟨row,old,same⟩)
      · rw [List.mem_singleton.mp added] at same
        rcases same with id | up
        · have := fresh.once id
          omega
        · obtain ⟨above,here,named⟩ := has_folder_iff.mp inside _ up
          exact new (Or.inl ⟨above,here,Or.inl named.symm⟩)
    · exact new (Or.inr feed)
  · intro m n same
    have := fresh.once same
    omega

theorem Fresh.add_feed (fresh : db.Fresh) (outline : Outline) (url : String) (inside : db.has_folder parent) :
    (db.add_feed outline url parent).Fresh := by
  refine ⟨?_,?_⟩
  · intro n there
    rw [mem_mentioned] at there
    have new := fresh.new (n + 1)
    rw [mem_mentioned] at new
    rcases there with folder | ⟨row,there,same⟩
    · exact new (Or.inl folder)
    · rcases List.mem_append.mp there with old | added
      · exact new (Or.inr ⟨row,old,same⟩)
      · rw [List.mem_singleton.mp added] at same
        rcases same with id | up
        · have := fresh.once id
          omega
        · obtain ⟨above,here,named⟩ := has_folder_iff.mp inside _ up
          exact new (Or.inl ⟨above,here,Or.inl named.symm⟩)
  · intro m n same
    have := fresh.once same
    omega

theorem Fresh.move_feed (fresh : db.Fresh) (feed_id : String) (inside : db.has_folder parent) : (db.move_feed feed_id parent).Fresh := by
  refine ⟨?_,fresh.once⟩
  intro n there
  rw [mem_mentioned] at there
  have new := fresh.new n
  rw [mem_mentioned] at new
  rcases there with folder | ⟨row,there,same⟩
  · exact new (Or.inl folder)
  · obtain ⟨old,here,rfl⟩ := List.mem_map.mp there
    split_ifs at same
    · rcases same with id | up
      · exact new (Or.inr ⟨old,here,Or.inl id⟩)
      · obtain ⟨above,held,named⟩ := has_folder_iff.mp inside _ up
        exact new (Or.inl ⟨above,held,Or.inl named.symm⟩)
    · exact new (Or.inr ⟨old,here,same⟩)

theorem new_folder_reads (now_reads : (TimeCrate.parse_rfc3339 (fmt_time db.now)).isSome) (id name : String) (parent : Option String) :
    (row_to_feed_folder ⟨id,name,parent,fmt_time db.now,fmt_time db.now⟩).isSome := by
  obtain ⟨now,reads⟩ := Option.isSome_iff_exists.mp now_reads
  simp [row_to_feed_folder,reads]

theorem new_feed_reads (now_reads : (TimeCrate.parse_rfc3339 (fmt_time db.now)).isSome) (id title url : String) (site folder : Option String) :
    (row_to_feed ⟨id,title,url,site,none,folder,fmt_time db.now,fmt_time db.now⟩).isSome := by
  obtain ⟨now,reads⟩ := Option.isSome_iff_exists.mp now_reads
  simp [row_to_feed,parse_time_opt,reads]

/-- A feed that is moved can be read if it could be before. -/
theorem moved_feed_reads (change_reads : (TimeCrate.parse_rfc3339 (TimeCrate.strftime db.now)).isSome) {row : FeedRow}
    (reads : (row_to_feed row).isSome) (folder : Option String) :
    (row_to_feed { row with folder_id := folder, updated_at := TimeCrate.strftime db.now }).isSome := by
  rw [row_to_feed_isSome] at reads ⊢
  exact ⟨reads.1,reads.2.1,change_reads⟩

theorem Sound.add_folder (sound : db.Sound) (name : String) (inside : db.has_folder parent) : (db.add_folder name parent).Sound := by
  have fresh := sound.ids.add_folder name inside
  refine ⟨?_,sound.feeds_read,sound.now_reads,sound.change_reads,fresh.new,fresh.once⟩
  intro row there
  rcases List.mem_append.mp there with old | new
  · exact sound.folders_read row old
  · rw [List.mem_singleton.mp new]
    exact new_folder_reads sound.now_reads _ _ _

theorem Sound.add_feed (sound : db.Sound) (outline : Outline) (url : String) (inside : db.has_folder parent) :
    (db.add_feed outline url parent).Sound := by
  have fresh := sound.ids.add_feed outline url inside
  refine ⟨sound.folders_read,?_,sound.now_reads,sound.change_reads,fresh.new,fresh.once⟩
  intro row there
  rcases List.mem_append.mp there with old | new
  · exact sound.feeds_read row old
  · rw [List.mem_singleton.mp new]
    exact new_feed_reads sound.now_reads _ _ _ _ _

theorem Sound.move_feed (sound : db.Sound) (feed_id : String) (inside : db.has_folder parent) : (db.move_feed feed_id parent).Sound := by
  have fresh := sound.ids.move_feed feed_id inside
  refine ⟨sound.folders_read,?_,sound.now_reads,sound.change_reads,fresh.new,fresh.once⟩
  intro row there
  obtain ⟨old,here,rfl⟩ := List.mem_map.mp there
  have read := sound.feeds_read old here
  split_ifs
  · exact moved_feed_reads sound.change_reads read parent
  · exact read

/-- Tables that went on: they are sound, and hold all folders that there were. -/
structure Grown (db db' : FeedTables) : Prop where
  sound : db'.Sound
  folders : ∀ row ∈ db.feed_folders, row ∈ db'.feed_folders

theorem Grown.trans {db' db'' : FeedTables} (one : Grown db db') (two : Grown db' db'') : Grown db db'' :=
  ⟨two.sound,fun row inside => two.folders row (one.folders row inside)⟩

theorem Grown.has_folder {db' : FeedTables} (grown : Grown db db') (inside : db.has_folder parent) : db'.has_folder parent := by
  rw [has_folder_iff] at inside ⊢
  intro id here
  obtain ⟨row,there,named⟩ := inside id here
  exact ⟨row,grown.folders row there,named⟩

theorem reach_feed_grown (sound : db.Sound) (inside : db.has_folder parent) (outline : Outline) :
    Grown db (reach_feed outline parent db).1 := by
  have still : Grown db db := ⟨sound,fun _ there => there⟩
  unfold reach_feed
  split
  · exact still
  · split
    · split_ifs
      · exact still
      · exact ⟨sound.move_feed _ inside,fun _ there => there⟩
    · exact ⟨sound.add_feed outline _ inside,fun _ there => there⟩

theorem reach_folder_grown (sound : db.Sound) (inside : db.has_folder parent) (name : String) :
    Grown db (reach_folder name parent db).1 ∧ (reach_folder name parent db).1.has_folder (some (reach_folder name parent db).2.1) := by
  unfold reach_folder
  split
  · next row found =>
    refine ⟨⟨sound,fun _ there => there⟩,?_⟩
    rw [has_folder_iff]
    rintro _ ⟨⟩
    exact ⟨row,(folder_row_some found).1,rfl⟩
  · refine ⟨⟨sound.add_folder name inside,fun _ there => List.mem_append_left _ there⟩,?_⟩
    rw [has_folder_iff]
    rintro _ ⟨⟩
    exact ⟨_,List.mem_append_right _ List.mem_cons_self,rfl⟩

/-- A walk leaves sound tables that hold all folders that there were. -/
theorem reach_grown (sound : db.Sound) (inside : db.has_folder parent) (outlines : List OpmlOutline) :
    Grown db (reach parent db outlines).1 := by
  induction outlines using forest_induction generalizing db parent with
  | nil =>
    rw [reach]
    exact ⟨sound,fun _ there => there⟩
  | cons outline children rest ih ih' =>
    have first : Grown db (reach_outline parent db (.node outline children)).1 := by
      rw [reach_outline]
      split_ifs
      · exact reach_feed_grown sound inside outline
      · exact ih sound inside
      · obtain ⟨grown,there⟩ := reach_folder_grown sound inside outline.display_name
        exact grown.trans (ih grown.sound there)
    rw [reach]
    exact first.trans (ih' first.sound (first.has_folder inside))

/-! ### Both importers take the walk -/

/-- Steps that find what the walk finds, leave the tables that it leaves, and count in a given way. -/
structure Follows (steps : ImportSteps) (count : ImportStats → Reached → ImportStats) : Prop where
  feed : ∀ {db : FeedTables} {parent : Option String} {outline : Outline}, db.Sound → db.has_folder parent → outline.is_feed →
    ∀ stats, steps.feed outline parent stats db =
      .ok ((reach_feed outline parent db).2.foldl count stats) (reach_feed outline parent db).1
  folder : ∀ {db : FeedTables} {parent : Option String} {name : String}, db.Sound → db.has_folder parent →
    ∀ stats, steps.folder name parent stats db =
      .ok (some (reach_folder name parent db).2.1,count stats (.Folder (reach_folder name parent db).2.2)) (reach_folder name parent db).1

/-- What follows the walk step by step follows it over whole forests. -/
theorem Follows.walk {steps : ImportSteps} {count : ImportStats → Reached → ImportStats} (follows : Follows steps count)
    (sound : db.Sound) (inside : db.has_folder parent) (outlines : List OpmlOutline) (stats : ImportStats) :
    steps.import_outlines parent stats outlines db = .ok ((reach parent db outlines).2.foldl count stats) (reach parent db outlines).1 := by
  induction outlines using forest_induction generalizing db parent stats with
  | nil =>
    rw [ImportSteps.import_outlines,reach]
    rfl
  | cons outline children rest ih ih' =>
    have first : steps.import_outline parent stats (.node outline children) db =
          .ok ((reach_outline parent db (.node outline children)).2.foldl count stats) (reach_outline parent db (.node outline children)).1 ∧
        Grown db (reach_outline parent db (.node outline children)).1 := by
      rw [ImportSteps.import_outline,reach_outline]
      split_ifs with feed unnamed
      · exact ⟨follows.feed sound inside feed stats,reach_feed_grown sound inside outline⟩
      · exact ⟨ih sound inside stats,reach_grown sound inside children⟩
      · obtain ⟨grown,there⟩ := reach_folder_grown sound inside outline.display_name
        refine ⟨?_,grown.trans (reach_grown grown.sound there children)⟩
        rw [work_bind,follows.folder sound inside stats]
        exact ih grown.sound there _
    obtain ⟨taken,grown⟩ := first
    rw [ImportSteps.import_outlines,reach,work_bind,taken]
    simp only [List.foldl_append]
    exact ih' grown.sound (grown.has_folder inside) _

theorem get_folder_some {name : String} {row : FolderRow} (reads : (row_to_feed_folder row).isSome)
    (found : db.folder_row name parent = some row) : ∃ folder, row_to_feed_folder row = some folder ∧ folder.id = row.id ∧
      get_feed_folder_by_name name parent db = .ok (some folder) db := by
  obtain ⟨folder,read⟩ := Option.isSome_iff_exists.mp reads
  refine ⟨folder,read,?_,?_⟩
  · simp only [row_to_feed_folder,Option.bind_eq_bind,Option.bind_eq_some_iff] at read
    obtain ⟨_,_,_,_,⟨⟩⟩ := read
    rfl
  · unfold get_feed_folder_by_name
    rw [get_bind]
    simp only [found,read]
    rfl

theorem get_folder_none {name : String} (missing : db.folder_row name parent = none) :
    get_feed_folder_by_name name parent db = .ok none db := by
  unfold get_feed_folder_by_name
  rw [get_bind]
  simp only [missing]
  rfl

theorem get_feed_some {url : String} {row : FeedRow} (reads : (row_to_feed row).isSome) (found : db.feed_row url = some row) :
    ∃ feed, feed.id = row.id ∧ feed.folder_id = row.folder_id ∧ get_feed_by_url url db = .ok (some feed) db := by
  obtain ⟨feed,read⟩ := Option.isSome_iff_exists.mp reads
  have same : feed.id = row.id ∧ feed.folder_id = row.folder_id := by
    simp only [row_to_feed,Option.bind_eq_bind,Option.bind_eq_some_iff] at read
    obtain ⟨_,_,_,_,_,_,⟨⟩⟩ := read
    exact ⟨rfl,rfl⟩
  refine ⟨feed,same.1,same.2,?_⟩
  unfold get_feed_by_url
  rw [get_bind]
  simp only [found,read]
  rfl

theorem get_feed_none {url : String} (missing : db.feed_row url = none) : get_feed_by_url url db = .ok none db := by
  unfold get_feed_by_url
  rw [get_bind]
  simp only [missing]
  rfl

omit [TimeCrate] in
theorem fresh_folder {id : String} (fresh : id ∉ db.mentioned) : db.feed_folders.any (fun row => row.id = id) = false := by
  rw [List.any_eq_false]
  intro row there same
  exact fresh (mem_mentioned.mpr (Or.inl ⟨row,there,Or.inl (of_decide_eq_true same).symm⟩))

omit [TimeCrate] in
theorem fresh_feed {id : String} (fresh : id ∉ db.mentioned) : db.feeds.any (fun row => row.id = id) = false := by
  rw [List.any_eq_false]
  intro row there same
  exact fresh (mem_mentioned.mpr (Or.inr ⟨row,there,Or.inl (of_decide_eq_true same).symm⟩))

omit [TimeCrate] in
theorem run_ok {statement : FeedTables → Except StorageError FeedTables} {db' : FeedTables} (ok : statement db = .ok db') :
    FeedTables.run statement db = .ok ⟨⟩ db' := by
  unfold FeedTables.run
  rw [ok]

/-- A missing folder is made, under the next id. -/
theorem insert_folder (fresh : db.Fresh) (inside : db.has_folder parent) {name : String} (missing : db.folder_row name parent = none) :
    insert_feed_folder ⟨db.uuids 0,name,parent,db.now,db.now⟩ { db with uuids := fun n => db.uuids (n + 1) } =
      .ok ⟨⟩ (db.add_folder name parent) := by
  have unheld := fresh_folder (fresh.new 0)
  refine run_ok (if_neg ?_)
  rintro (held | named | outside)
  · simp [unheld] at held
  · exact absurd named (by simpa [folder_row] using missing)
  · exact outside inside

/-- A missing feed is made, under the next id. -/
theorem insert_missing_feed (fresh : db.Fresh) (inside : db.has_folder parent) {outline : Outline} {url : String}
    (missing : db.feed_row url = none) :
    (new_feed outline url parent >>= insert_feed) db = .ok ⟨⟩ (db.add_feed outline url parent) := by
  have unheld := fresh_feed (fresh.new 0)
  change insert_feed ⟨db.uuids 0,outline.display_name,url,outline.html_url,none,parent,db.now,db.now⟩
    { db with uuids := fun n => db.uuids (n + 1) } = _
  refine run_ok (if_neg ?_)
  rintro (held | named | outside)
  · simp [unheld] at held
  · exact absurd named (by simpa [feed_row] using missing)
  · exact outside inside

theorem update_folder_id (feed_id : String) (inside : db.has_folder parent) :
    update_feed_folder_id feed_id parent db = .ok ⟨⟩ (db.move_feed feed_id parent) :=
  run_ok (if_neg (fun out => out.2 inside))

theorem Server.gets_or_creates (sound : db.Sound) (inside : db.has_folder parent) (name : String) :
    Server.get_or_create_folder name parent db = .ok (reach_folder name parent db).2.1 (reach_folder name parent db).1 := by
  unfold Server.get_or_create_folder reach_folder
  cases held : db.folder_row name parent with
  | none =>
    rw [work_bind,get_folder_none held]
    change (insert_feed_folder ⟨db.uuids 0,name,parent,db.now,db.now⟩ >>= fun _ => pure (db.uuids 0))
      { db with uuids := fun n => db.uuids (n + 1) } = _
    rw [work_bind,insert_folder sound.ids inside held]
    rfl
  | some row =>
    obtain ⟨folder,_,id,got⟩ := get_folder_some (sound.folders_read row (folder_row_some held).1) held
    rw [work_bind,got]
    simp only [id]
    rfl

/-- After the walk the folder is there. -/
theorem reach_folder_again (name : String) : ∃ row,
    (reach_folder name parent db).1.folder_row name parent = some row ∧ row.id = (reach_folder name parent db).2.1 := by
  unfold reach_folder
  cases held : db.folder_row name parent with
  | none =>
    refine ⟨⟨db.uuids 0,name,parent,fmt_time db.now,fmt_time db.now⟩,?_,rfl⟩
    unfold folder_row at held ⊢
    rw [FeedTables.add_folder,List.find?_append,held]
    simp [Library.same_name_refl]
  | some row => exact ⟨row,held,rfl⟩

theorem Server.follows : Follows Server.steps server_count := by
  constructor
  · intro db parent outline sound inside feed stats
    obtain ⟨url,named⟩ := Option.isSome_iff_exists.mp (show outline.xml_url.isSome from feed)
    change Server.import_feed outline parent stats db = _
    unfold Server.import_feed reach_feed
    simp only [named]
    cases held : db.feed_row url with
    | none =>
      rw [work_bind,get_feed_none held]
      change ((new_feed outline url parent >>= insert_feed) >>= fun _ => pure _) db = _
      rw [work_bind,insert_missing_feed sound.ids inside held]
      rfl
    | some row =>
      obtain ⟨existing,id,folder,got⟩ := get_feed_some (sound.feeds_read row (List.mem_of_find?_eq_some held)) held
      rw [work_bind,got]
      simp only [folder,id]
      split_ifs with here
      · rfl
      · rw [work_bind,update_folder_id row.id inside]
        rfl
  · intro db parent name sound inside stats
    change Server.import_folder name parent stats db = _
    obtain ⟨row,again,id⟩ := @reach_folder_again _ db parent name
    obtain ⟨folder,_,same,got⟩ := get_folder_some ((reach_folder_grown sound inside name).1.sound.folders_read row (folder_row_some again).1) again
    unfold Server.import_folder
    rw [work_bind,Server.gets_or_creates sound inside name]
    simp only
    rw [work_bind,got]
    simp [same,id,server_count,pure,EStateM.pure]

theorem Sound.feed_reads (sound : db.Sound) (url : String) : db.feed_reads url = true := by
  unfold FeedTables.feed_reads
  cases held : db.feed_row url with
  | none => rfl
  | some row => exact sound.feeds_read row (List.mem_of_find?_eq_some held)

theorem Sound.folder_reads (sound : db.Sound) (name : String) : db.folder_reads name parent = true := by
  unfold FeedTables.folder_reads
  cases held : db.folder_row name parent with
  | none => rfl
  | some row => exact sound.folders_read row (folder_row_some held).1

/-- The folder that the command line goes on with. A new one is unchanged. -/
theorem Cli.gets_or_creates (fresh : db.Fresh) (inside : db.has_folder parent) {name : String} (reads : db.folder_reads name parent = true) :
    ∃ folder, Cli.get_or_create_folder name parent db = .ok folder (reach_folder name parent db).1 ∧
      folder.id = (reach_folder name parent db).2.1 ∧
      (decide (folder.created_at.nanos = folder.updated_at.nanos) = (reach_folder name parent db).2.2.all unchanged) := by
  unfold Cli.get_or_create_folder reach_folder
  cases held : db.folder_row name parent with
  | none =>
    refine ⟨⟨db.uuids 0,name,parent,db.now,db.now⟩,?_,rfl,by simp⟩
    rw [work_bind,get_folder_none held]
    change (insert_feed_folder ⟨db.uuids 0,name,parent,db.now,db.now⟩ >>= fun _ => pure _)
      { db with uuids := fun n => db.uuids (n + 1) } = _
    rw [work_bind,insert_folder fresh inside held]
    rfl
  | some row =>
    obtain ⟨folder,read,id,got⟩ := get_folder_some (by simpa [FeedTables.folder_reads,held] using reads) held
    refine ⟨folder,?_,id,by simp [unchanged,read]⟩
    rw [work_bind,got]
    rfl

/-- The command line takes a feed that can be read. -/
theorem Cli.takes_feed (fresh : db.Fresh) (inside : db.has_folder parent) {outline : Outline} {url : String}
    (named : outline.xml_url = some url) (reads : db.feed_reads url = true) (stats : ImportStats) :
    Cli.import_feed false outline parent stats db =
      .ok ((reach_feed outline parent db).2.foldl cli_count stats) (reach_feed outline parent db).1 := by
  unfold Cli.import_feed reach_feed
  simp only [named]
  cases held : db.feed_row url with
  | none =>
    rw [work_bind,get_feed_none held]
    change ((new_feed outline url parent >>= insert_feed) >>= fun _ => pure _) db = _
    rw [work_bind,insert_missing_feed fresh inside held]
    rfl
  | some row =>
    obtain ⟨existing,id,folder,got⟩ := get_feed_some (by simpa [FeedTables.feed_reads,held] using reads) held
    rw [work_bind,got]
    simp only [folder,id]
    by_cases here : row.folder_id = parent
    · rw [if_pos here,if_pos here]
      rfl
    · rw [if_neg here,if_neg here]
      change (update_feed_folder_id row.id parent >>= fun _ => pure _) db = _
      rw [work_bind,update_folder_id row.id inside]
      rfl

/-- The command line takes a folder that can be read. -/
theorem Cli.takes_folder (fresh : db.Fresh) (inside : db.has_folder parent) {name : String} (reads : db.folder_reads name parent = true)
    (stats : ImportStats) : Cli.import_folder false name parent stats db =
      .ok (some (reach_folder name parent db).2.1,cli_count stats (.Folder (reach_folder name parent db).2.2)) (reach_folder name parent db).1 := by
  obtain ⟨folder,got,id,new⟩ := Cli.gets_or_creates fresh inside reads
  unfold Cli.import_folder
  rw [if_neg Bool.false_ne_true,work_bind,got]
  simp only [id]
  generalize (reach_folder name parent db).2.2 = found at new ⊢
  cases found with
  | none =>
    have equal := of_decide_eq_true new
    simp [equal,cli_count,pure,EStateM.pure]
  | some row =>
    have equal : folder.created_at.nanos = folder.updated_at.nanos ↔ unchanged row = true := by
      simpa using congrArg (fun b => b = true) new
    simp [equal,cli_count,pure,EStateM.pure]

theorem Cli.follows : Follows (Cli.steps false) cli_count := by
  constructor
  · intro db parent outline sound inside feed stats
    obtain ⟨url,named⟩ := Option.isSome_iff_exists.mp (show outline.xml_url.isSome from feed)
    exact Cli.takes_feed sound.ids inside named (sound.feed_reads url) stats
  · intro db parent name sound inside stats
    exact Cli.takes_folder sound.ids inside (sound.folder_reads name) stats

/-! ### Folders that were there -/

/-- A folder that is found is in a row of a kind. -/
def Reached.Held (kind : FolderRow → Prop) : Reached → Prop
  | .Folder none => False
  | .Folder (some row) => kind row
  | _ => True

omit [TimeCrate] in
theorem folder_row_congr {db' : FeedTables} (same : db'.feed_folders = db.feed_folders) (name : String) :
    db'.folder_row name parent = db.folder_row name parent := by
  unfold folder_row
  rw [same]

theorem reach_feed_folders (outline : Outline) : (reach_feed outline parent db).1.feed_folders = db.feed_folders ∧
    ∀ kind, ∀ e ∈ (reach_feed outline parent db).2, e.Held kind := by
  unfold reach_feed
  split
  · exact ⟨rfl,by simp⟩
  · split
    · split_ifs
      · exact ⟨rfl,by simp [Reached.Held]⟩
      · exact ⟨rfl,by simp [Reached.Held]⟩
    · exact ⟨rfl,by simp [Reached.Held]⟩

/-- All folders that are found are held in rows of a kind iff all folders were there in such rows. They then stay as they
    are. -/
theorem known_iff (kind : FolderRow → Prop) {db' : FeedTables} (same : db'.feed_folders = db.feed_folders) (outlines : List OpmlOutline) :
    (Known kind db parent outlines ↔ ∀ e ∈ (reach parent db' outlines).2, e.Held kind) ∧
      (Known kind db parent outlines → (reach parent db' outlines).1.feed_folders = db.feed_folders) := by
  induction outlines using forest_induction generalizing db' parent with
  | nil =>
    rw [Known,reach]
    exact ⟨by simp,fun _ => same⟩
  | cons outline children rest ih ih' =>
    have first : (KnownOutline kind db parent (.node outline children) ↔
          ∀ e ∈ (reach_outline parent db' (.node outline children)).2, e.Held kind) ∧
        (KnownOutline kind db parent (.node outline children) →
          (reach_outline parent db' (.node outline children)).1.feed_folders = db.feed_folders) := by
      rw [KnownOutline,reach_outline]
      split_ifs
      · obtain ⟨folders,right⟩ := @reach_feed_folders _ db' parent outline
        exact ⟨⟨fun _ => right kind,fun _ => trivial⟩,fun _ => folders.trans same⟩
      · exact ih same
      · unfold reach_folder
        rw [folder_row_congr same]
        cases db.folder_row outline.display_name parent with
        | none => simp [Reached.Held]
        | some row =>
          obtain ⟨below,kept⟩ := @ih (some row.id) db' same
          refine ⟨?_,?_⟩
          · simp [Reached.Held,below]
          · rintro ⟨_,⟨⟩,_,known⟩
            exact kept known
    rw [Known,reach,first.1]
    simp only [List.forall_mem_append]
    refine ⟨and_congr_right (fun right => ?_),fun both => ?_⟩
    · exact (ih' (first.2 (first.1.mpr right))).1
    · exact (ih' (first.2 (first.1.mpr both.1))).2 both.2

/-! ### The same folders and feeds -/

/-- The id, the name and the parent of a folder, under other ids. -/
def folder_shape (f : String → String) (row : FolderRow) : String × String × Option String :=
  (f row.id,row.name,row.parent_id.map f)

/-- The id, the title, the urls and the folder of a feed, under other ids. -/
def feed_shape (f : String → String) (row : FeedRow) : String × String × String × Option String × Option String :=
  (f row.id,row.title,row.url,row.site_url,row.folder_id.map f)

/-- Two tables hold the same folders and the same feeds, but for their ids and times. -/
structure Renamed (f : Equiv.Perm String) (db db' : FeedTables) : Prop where
  folders : db'.feed_folders.map (folder_shape id) = db.feed_folders.map (folder_shape f)
  feeds : db'.feeds.map (feed_shape id) = db.feeds.map (feed_shape f)

omit [TimeCrate] in
theorem Renamed.refl (db : FeedTables) : Renamed (Equiv.refl String) db db := ⟨rfl,rfl⟩

section
variable {db' : FeedTables} {f g : Equiv.Perm String}

omit [TimeCrate] in
theorem Renamed.mentioned (renamed : Renamed f db db') : db'.mentioned = db.mentioned.map f := by
  have folders := congrArg (fun shapes => shapes.flatMap (fun s => s.1 :: s.2.2.toList)) renamed.folders
  have feeds := congrArg (fun shapes => shapes.flatMap (fun s => s.1 :: s.2.2.2.2.toList)) renamed.feeds
  simp only [List.flatMap_map,folder_shape,feed_shape,Option.map_id,id] at folders feeds
  unfold FeedTables.mentioned
  rw [folders,feeds,List.map_append,List.map_flatMap,List.map_flatMap]
  simp [Option.toList_map]

omit [TimeCrate] in
/-- Only the new names of ids that are mentioned matter. -/
theorem Renamed.congr (renamed : Renamed f db db') (same : ∀ id ∈ db.mentioned, g id = f id) : Renamed g db db' := by
  refine ⟨renamed.folders.trans (List.map_congr_left (fun row there => ?_)),
    renamed.feeds.trans (List.map_congr_left (fun row there => ?_))⟩
  · unfold folder_shape
    rw [same row.id (mem_mentioned.mpr (Or.inl ⟨row,there,Or.inl rfl⟩)),
      Option.map_congr (fun id up => same id (mem_mentioned.mpr (Or.inl ⟨row,there,Or.inr up⟩)))]
  · unfold feed_shape
    rw [same row.id (mem_mentioned.mpr (Or.inr ⟨row,there,Or.inl rfl⟩)),
      Option.map_congr (fun id up => same id (mem_mentioned.mpr (Or.inr ⟨row,there,Or.inr up⟩)))]

omit [TimeCrate] in
theorem map_parent (old : ∀ row ∈ db.feed_folders, g row.id = f row.id) (inside : db.has_folder parent) :
    parent.map g = parent.map f := by
  rw [has_folder_iff] at inside
  refine Option.map_congr (fun i up => ?_)
  obtain ⟨row,there,rfl⟩ := inside i up
  exact old row there

/-- The id that is drawn next gets a name as well. -/
theorem Renamed.extend (renamed : Renamed f db db') (sound : db.Sound) (sound' : db'.Sound) :
    ∃ g : Equiv.Perm String, g (db.uuids 0) = db'.uuids 0 ∧ ∀ id ∈ db.mentioned, g id = f id := by
  refine ⟨(Equiv.swap (db.uuids 0) (f.symm (db'.uuids 0))).trans f,?_,?_⟩
  · rw [Equiv.trans_apply,Equiv.swap_apply_left,Equiv.apply_symm_apply]
  · intro id there
    rw [Equiv.trans_apply,Equiv.swap_apply_of_ne_of_ne]
    · rintro rfl
      exact sound.fresh 0 there
    · rintro rfl
      refine sound'.fresh 0 ?_
      rw [renamed.mentioned]
      exact List.mem_map.mpr ⟨_,there,Equiv.apply_symm_apply f _⟩

omit [TimeCrate] in
theorem Renamed.has_folder (renamed : Renamed f db db') (inside : db.has_folder parent) : db'.has_folder (parent.map f) := by
  rw [has_folder_iff] at inside ⊢
  intro i up
  obtain ⟨old,here,rfl⟩ := Option.mem_map.mp up
  obtain ⟨row,there,rfl⟩ := inside old here
  have shape : folder_shape f row ∈ db'.feed_folders.map (folder_shape id) := by
    rw [renamed.folders]
    exact List.mem_map_of_mem there
  obtain ⟨row',there',same⟩ := List.mem_map.mp shape
  exact ⟨row',there',congrArg Prod.fst same⟩

omit [TimeCrate] in
/-- A folder is found in one exactly where it is found in the other. -/
theorem Renamed.folder_row (renamed : Renamed f db db') (name : String) (parent : Option String) :
    (db'.folder_row name (parent.map f)).map (folder_shape id) = (db.folder_row name parent).map (folder_shape f) := by
  let found (shape : String × String × Option String) : Bool := Library.same_name shape.2.1 name && shape.2.2 = parent.map f
  have one : db'.folder_row name (parent.map f) = db'.feed_folders.find? (found ∘ folder_shape id) := by
    show _ = List.find? (fun row => found (folder_shape id row)) _
    simp [FeedTables.folder_row,found,folder_shape]
  have two : db.folder_row name parent = db.feed_folders.find? (found ∘ folder_shape f) := by
    simp [FeedTables.folder_row,found,Function.comp_def,folder_shape,(Option.map_injective f.injective).eq_iff]
  rw [one,two,← List.find?_map,← List.find?_map,renamed.folders]

omit [TimeCrate] in
/-- A feed is found in one exactly where it is found in the other. -/
theorem Renamed.feed_row (renamed : Renamed f db db') (url : String) :
    (db'.feed_row url).map (feed_shape id) = (db.feed_row url).map (feed_shape f) := by
  let found (shape : String × String × String × Option String × Option String) : Bool := shape.2.2.1 = url
  have one : db'.feed_row url = db'.feeds.find? (found ∘ feed_shape id) := rfl
  have two : db.feed_row url = db.feeds.find? (found ∘ feed_shape f) := rfl
  rw [one,two,← List.find?_map,← List.find?_map,renamed.feeds]

theorem Renamed.add_folder (renamed : Renamed f db db') (sound : db.Sound) (sound' : db'.Sound) (inside : db.has_folder parent)
    (name : String) : ∃ g : Equiv.Perm String, (∀ row ∈ db.feed_folders, g row.id = f row.id) ∧ g (db.uuids 0) = db'.uuids 0 ∧
      Renamed g (db.add_folder name parent) (db'.add_folder name (parent.map f)) := by
  obtain ⟨g,new,same⟩ := renamed.extend sound sound'
  have old (row : FolderRow) (there : row ∈ db.feed_folders) : g row.id = f row.id :=
    same row.id (mem_mentioned.mpr (Or.inl ⟨row,there,Or.inl rfl⟩))
  refine ⟨g,old,new,?_,(renamed.congr same).feeds⟩
  rw [FeedTables.add_folder,FeedTables.add_folder,List.map_append,List.map_append,(renamed.congr same).folders]
  simp [folder_shape,new,map_parent old inside]

theorem Renamed.add_feed (renamed : Renamed f db db') (sound : db.Sound) (sound' : db'.Sound) (inside : db.has_folder parent)
    (outline : Outline) (url : String) : ∃ g : Equiv.Perm String, (∀ row ∈ db.feed_folders, g row.id = f row.id) ∧
      Renamed g (db.add_feed outline url parent) (db'.add_feed outline url (parent.map f)) := by
  obtain ⟨g,new,same⟩ := renamed.extend sound sound'
  have old (row : FolderRow) (there : row ∈ db.feed_folders) : g row.id = f row.id :=
    same row.id (mem_mentioned.mpr (Or.inl ⟨row,there,Or.inl rfl⟩))
  refine ⟨g,old,(renamed.congr same).folders,?_⟩
  rw [FeedTables.add_feed,FeedTables.add_feed,List.map_append,List.map_append,(renamed.congr same).feeds]
  simp [feed_shape,new,map_parent old inside]

theorem Renamed.move_feed (renamed : Renamed f db db') (feed_id : String) (parent : Option String) :
    Renamed f (db.move_feed feed_id parent) (db'.move_feed (f feed_id) (parent.map f)) := by
  let moved (shape : String × String × String × Option String × Option String) :=
    if shape.1 = f feed_id then (shape.1,shape.2.1,shape.2.2.1,shape.2.2.2.1,parent.map f) else shape
  refine ⟨renamed.folders,?_⟩
  have one : (db'.move_feed (f feed_id) (parent.map f)).feeds.map (feed_shape id) = (db'.feeds.map (feed_shape id)).map moved := by
    rw [FeedTables.move_feed,List.map_map,List.map_map]
    refine List.map_congr_left (fun row _ => ?_)
    by_cases here : row.id = f feed_id <;> simp [moved,feed_shape,here]
  have two : (db.move_feed feed_id parent).feeds.map (feed_shape f) = (db.feeds.map (feed_shape f)).map moved := by
    rw [FeedTables.move_feed,List.map_map,List.map_map]
    refine List.map_congr_left (fun row _ => ?_)
    by_cases here : row.id = feed_id <;> simp [moved,feed_shape,here]
  rw [one,two,renamed.feeds]

/-- At a feed both tables go on alike. -/
theorem reach_feed_renamed (renamed : Renamed f db db') (sound : db.Sound) (sound' : db'.Sound) (inside : db.has_folder parent)
    (outline : Outline) : ∃ g : Equiv.Perm String, (∀ row ∈ db.feed_folders, g row.id = f row.id) ∧
      Renamed g (reach_feed outline parent db).1 (reach_feed outline (parent.map f) db').1 := by
  unfold reach_feed
  cases outline.xml_url with
  | none => exact ⟨f,fun _ _ => rfl,renamed⟩
  | some url =>
    have alike := renamed.feed_row url
    cases one : db.feed_row url with
    | none =>
      rw [one,Option.map_none,Option.map_eq_none_iff] at alike
      simp only [one,alike]
      exact renamed.add_feed sound sound' inside outline url
    | some row =>
      rw [one,Option.map_some,Option.map_eq_some_iff] at alike
      obtain ⟨row',two,shape⟩ := alike
      have id_same : row'.id = f row.id := congrArg Prod.fst shape
      have folder_same : row'.folder_id = row.folder_id.map f := by
        simpa [feed_shape] using congrArg (fun s => s.2.2.2.2) shape
      have here_iff : row'.folder_id = parent.map f ↔ row.folder_id = parent := by
        rw [folder_same]
        exact (Option.map_injective f.injective).eq_iff
      simp only [one,two,here_iff]
      refine ⟨f,fun _ _ => rfl,?_⟩
      split_ifs
      · exact renamed
      · rw [id_same]
        exact renamed.move_feed row.id parent

/-- At a folder both tables go on alike, and so do the ids that are gone on with. -/
theorem reach_folder_renamed (renamed : Renamed f db db') (sound : db.Sound) (sound' : db'.Sound) (inside : db.has_folder parent)
    (name : String) : ∃ g : Equiv.Perm String, (∀ row ∈ db.feed_folders, g row.id = f row.id) ∧
      g (reach_folder name parent db).2.1 = (reach_folder name (parent.map f) db').2.1 ∧
      Renamed g (reach_folder name parent db).1 (reach_folder name (parent.map f) db').1 := by
  unfold reach_folder
  have alike := renamed.folder_row name parent
  cases one : db.folder_row name parent with
  | none =>
    rw [one,Option.map_none,Option.map_eq_none_iff] at alike
    simp only [alike]
    exact renamed.add_folder sound sound' inside name
  | some row =>
    rw [one,Option.map_some,Option.map_eq_some_iff] at alike
    obtain ⟨row',two,shape⟩ := alike
    simp only [two]
    exact ⟨f,fun _ _ => rfl,(congrArg Prod.fst shape).symm,renamed⟩

/-- Tables that hold the same but for their ids hold the same after the walk. -/
theorem reach_renamed (renamed : Renamed f db db') (sound : db.Sound) (sound' : db'.Sound) (inside : db.has_folder parent)
    (outlines : List OpmlOutline) : ∃ g : Equiv.Perm String, (∀ row ∈ db.feed_folders, g row.id = f row.id) ∧
      Renamed g (reach parent db outlines).1 (reach (parent.map f) db' outlines).1 := by
  induction outlines using forest_induction generalizing db db' parent f with
  | nil =>
    rw [reach,reach]
    exact ⟨f,fun _ _ => rfl,renamed⟩
  | cons outline children rest ih ih' =>
    have inside' := renamed.has_folder inside
    have first : ∃ g : Equiv.Perm String, (∀ row ∈ db.feed_folders, g row.id = f row.id) ∧
        Renamed g (reach_outline parent db (.node outline children)).1 (reach_outline (parent.map f) db' (.node outline children)).1 ∧
        Grown db (reach_outline parent db (.node outline children)).1 ∧
        Grown db' (reach_outline (parent.map f) db' (.node outline children)).1 := by
      rw [reach_outline,reach_outline]
      split_ifs
      · obtain ⟨g,old,alike⟩ := reach_feed_renamed renamed sound sound' inside outline
        exact ⟨g,old,alike,reach_feed_grown sound inside outline,reach_feed_grown sound' inside' outline⟩
      · obtain ⟨g,old,alike⟩ := ih renamed sound sound' inside
        exact ⟨g,old,alike,reach_grown sound inside children,reach_grown sound' inside' children⟩
      · obtain ⟨g,old,next,alike⟩ := reach_folder_renamed renamed sound sound' inside outline.display_name
        obtain ⟨grown,there⟩ := reach_folder_grown sound inside outline.display_name
        obtain ⟨grown',there'⟩ := reach_folder_grown sound' inside' outline.display_name
        obtain ⟨h,kept,below⟩ := ih alike grown.sound grown'.sound there
        rw [Option.map_some,next] at below
        exact ⟨h,fun row held => (kept row (grown.folders row held)).trans (old row held),below,
          grown.trans (reach_grown grown.sound there children),grown'.trans (reach_grown grown'.sound there' children)⟩
    obtain ⟨g,old,alike,grown,grown'⟩ := first
    obtain ⟨h,kept,after⟩ := ih' alike grown.sound grown'.sound (grown.has_folder inside)
    rw [map_parent old inside] at after
    rw [reach,reach]
    exact ⟨h,fun row held => (kept row (grown.folders row held)).trans (old row held),after⟩

end

end

/-! ### The importers -/

/-- The folders that count as created. -/
def created : Reached → ℕ
  | .Folder none => 1
  | _ => 0

theorem counted (stats : ImportStats) (e : Reached) : (count stats e).folders_created = stats.folders_created + created e := by
  rcases e with (_ | _) | _ | _ | _ <;> rfl

theorem server_counts_right (found : List Reached) : found.foldl server_count no_stats = found.foldl count no_stats ↔
    ∀ e ∈ found, e.Held (fun _ => True) := by
  have server (stats : ImportStats) (e : Reached) : (server_count stats e).folders_created = stats.folders_created + 0 := by
    cases e <;> rfl
  have agree (e : Reached) (none_new : 0 = created e) (stats : ImportStats) : server_count stats e = count stats e := by
    rcases e with (_ | row) | _ | _ | _
    · simp [created] at none_new
    all_goals rfl
  rw [counts_iff server counted (fun e => Nat.zero_le _) agree]
  refine forall₂_congr (fun e _ => ?_)
  rcases e with (_ | row) | _ | _ | _ <;> simp [created,Reached.Held]

/-- The folders that the command line counts as created. -/
def cli_created [TimeCrate] : Reached → ℕ
  | .Folder none => 1
  | .Folder (some row) => if unchanged row then 1 else 0
  | _ => 0

theorem cli_counted [TimeCrate] (stats : ImportStats) (e : Reached) :
    (cli_count stats e).folders_created = stats.folders_created + cli_created e := by
  rcases e with (_ | row) | _ | _ | _
  · rfl
  · by_cases same : unchanged row <;> simp [cli_count,cli_created,same]
  all_goals rfl

/-- A folder that is found has been changed. -/
def Reached.Changed [TimeCrate] : Reached → Prop
  | .Folder (some row) => unchanged row = false
  | _ => True

/-- The command line counts right iff all folders that are found have been changed. -/
theorem cli_counts_iff [TimeCrate] (found : List Reached) :
    found.foldl cli_count no_stats = found.foldl count no_stats ↔ ∀ e ∈ found, e.Changed := by
  have le (e : Reached) : created e ≤ cli_created e := by
    rcases e with (_ | _) | _ | _ | _ <;> simp [created,cli_created]
  have agree (e : Reached) (new : created e = cli_created e) (stats : ImportStats) : count stats e = cli_count stats e := by
    rcases e with (_ | row) | _ | _ | _
    · rfl
    · by_cases same : unchanged row
      · simp [created,cli_created,same] at new
      · simp [count,cli_count,same]
    all_goals rfl
  rw [eq_comm,counts_iff counted cli_counted le agree]
  refine forall₂_congr (fun e _ => ?_)
  rcases e with (_ | row) | _ | _ | _
  · simp [created,cli_created,Reached.Changed]
  · by_cases same : unchanged row <;> simp [created,cli_created,Reached.Changed,same]
  all_goals simp [created,cli_created,Reached.Changed]

theorem cli_counts_right [TimeCrate] (found : List Reached) (held : ∀ e ∈ found, e.Held (fun _ => True)) :
    found.foldl cli_count no_stats = found.foldl count no_stats ↔ ∀ e ∈ found, e.Held (fun row => unchanged row = false) := by
  rw [cli_counts_iff]
  refine forall₂_congr (fun e there => ?_)
  rcases e with (_ | row) | _ | _ | _
  · exact (held _ there).elim
  all_goals rfl

section
variable [TimeCrate]

/-- Each importer succeeds and leaves the same folders and feeds. Both count right iff all folders
    are there, and have been changed. -/
theorem import_iff (outlines : List OpmlOutline) {db db' : FeedTables} (sound : db.Sound) (sound' : db'.Sound)
    (folders : db'.feed_folders = db.feed_folders) (feeds : db'.feeds = db.feeds) :
    (∃ stats after stats' after', Server.import_opml outlines db = .ok stats after ∧
        Cli.import_opml false outlines db' = .ok stats' after' ∧
        (∃ f : Equiv.Perm String, (∀ row ∈ db.feed_folders, f row.id = row.id) ∧ Renamed f after after') ∧
        stats = (reach none db outlines).2.foldl count no_stats ∧ stats' = (reach none db' outlines).2.foldl count no_stats) ↔
      Known (fun row => unchanged row = false) db none outlines := by
  have root (db : FeedTables) : db.has_folder none := rfl
  have server := Server.follows.walk sound (root db) outlines no_stats
  have cli := Cli.follows.walk sound' (root db') outlines no_stats
  have alike : Renamed (Equiv.refl String) db db' := ⟨by rw [folders]; rfl,by rw [feeds]; rfl⟩
  constructor
  · rintro ⟨stats,after,stats',after',one,two,_,right,right'⟩
    have first := server.symm.trans one
    have second := cli.symm.trans two
    injection first with first _
    injection second with second _
    have there := (server_counts_right _).mp (first.trans right)
    have there' := (known_iff _ folders outlines).1.mp ((known_iff _ rfl outlines).1.mpr there)
    exact (known_iff _ folders outlines).1.mpr ((cli_counts_right _ there').mp (second.trans right'))
  · intro known
    have held := (known_iff _ rfl outlines).1.mp known
    have held' := (known_iff _ folders outlines).1.mp known
    have weaker (e : Reached) (held : e.Held (fun row => unchanged row = false)) : e.Held (fun _ => True) := by
      rcases e with (_ | _) | _ | _ | _
      · exact held
      all_goals trivial
    refine ⟨_,_,_,_,server,cli,?_,(server_counts_right _).mpr (fun e there => weaker e (held e there)),
      (cli_counts_right _ (fun e there => weaker e (held' e there))).mpr held'⟩
    exact reach_renamed alike sound sound' (root db) outlines

end

/-- Times that are read as the lengths of their texts. -/
@[reducible] def lengthTimes : TimeCrate := ⟨fun _ => some "now",fun _ => "now",fun s => some ⟨s.length,0⟩,fun _ => "later"⟩

/-- Tables with at most one folder, and no feeds. -/
def one_folder (changed : Option String) : FeedTables :=
  ⟨(changed.map (fun updated_at => ⟨"f","News",none,"now",updated_at⟩)).toList,[],⟨0,0⟩,
    fun n => String.ofList (List.replicate (n + 2) 'u')⟩

theorem one_folder_sound (changed : Option String) : @Sound lengthTimes (one_folder changed) := by
  refine @Sound.mk lengthTimes _ (fun _ _ => rfl) (fun _ there => nomatch there) rfl rfl ?_ ?_
  · intro n there
    rw [mem_mentioned] at there
    cases changed with
    | none => simp [one_folder] at there
    | some updated_at =>
      have same : String.ofList (List.replicate (n + 2) 'u') = "f" := by simpa [one_folder] using there
      have long := congrArg String.length same
      rw [String.length_ofList,List.length_replicate] at long
      have one : "f".length = 1 := by decide
      omega
  · intro m n same
    simpa [one_folder] using congrArg String.length same

/-- An outline of a folder. -/
def news : List OpmlOutline := [.node ⟨"News",none,none,none,none⟩ []]

/-- A folder that was changed is counted right. -/
theorem import_iff_changed :
    ∃ stats after stats' after', @Server.import_opml lengthTimes news (one_folder (some "later")) = .ok stats after ∧
      @Cli.import_opml lengthTimes false news (one_folder (some "later")) = .ok stats' after' ∧ stats = ⟨0,1,0,0,0⟩ ∧ stats' = ⟨0,1,0,0,0⟩ := by
  have sound := one_folder_sound (some "later")
  have known : @Known (fun row => @unchanged lengthTimes row = false) (one_folder (some "later")) none news := by
    have changed : @unchanged lengthTimes ⟨"f","News",none,"now","later"⟩ = false := by decide
    simp [news,Known,KnownOutline,Outline.is_feed,Outline.display_name,folder_row,one_folder,Library.same_name_refl,changed]
  obtain ⟨stats,after,stats',after',server,cli,_,right,right'⟩ := (@import_iff lengthTimes news _ _ sound sound rfl rfl).mpr known
  exact ⟨stats,after,stats',after',server,cli,right,right'⟩

/-- A new folder counts as existing on the server, and one that was there counts as created on the
    command line. -/
theorem import_miscounts :
    @Sound lengthTimes (one_folder none) ∧ (@reach lengthTimes none (one_folder none) news).2.foldl count no_stats = ⟨1,0,0,0,0⟩ ∧
      (∃ after, @Server.import_opml lengthTimes news (one_folder none) = .ok ⟨0,1,0,0,0⟩ after) ∧
    @Sound lengthTimes (one_folder (some "now")) ∧
      (@reach lengthTimes none (one_folder (some "now")) news).2.foldl count no_stats = ⟨0,1,0,0,0⟩ ∧
      ∃ after, @Cli.import_opml lengthTimes false news (one_folder (some "now")) = .ok ⟨1,0,0,0,0⟩ after := by
  have server := @Follows.walk lengthTimes _ none _ _ (@Server.follows lengthTimes) (one_folder_sound none) rfl news no_stats
  have cli := @Follows.walk lengthTimes _ none _ _ (@Cli.follows lengthTimes) (one_folder_sound (some "now")) rfl news no_stats
  have new : (@reach lengthTimes none (one_folder none) news).2 = [.Folder none] := by
    simp [news,reach,reach_outline,Outline.is_feed,Outline.display_name,reach_folder,folder_row,one_folder]
  have old : (@reach lengthTimes none (one_folder (some "now")) news).2 = [.Folder (some ⟨"f","News",none,"now","now"⟩)] := by
    simp [news,reach,reach_outline,Outline.is_feed,Outline.display_name,reach_folder,folder_row,one_folder,Library.same_name_refl]
  rw [new] at server
  rw [old] at cli
  refine ⟨one_folder_sound none,?_,⟨_,server⟩,one_folder_sound (some "now"),?_,⟨_,cli⟩⟩
  · rw [new]
    rfl
  · rw [old]
    rfl

end FeedTables

end Pergamon
