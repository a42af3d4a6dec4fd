import Mathlib.Data.List.Nodup
import Mathlib.Data.String.Basic
import Pergamon.Exports

/-!
The names that exports give to files. With a template that shows the identifier every item keeps its
natural name, and otherwise an item after another one of its name gets the beginning of its
identifier as a suffix. Nothing makes sure that the names are new, or that links follow a suffix. So
names and links are right iff no two items agree in what the template shows, or else no two items with
suffixes agree in their names and suffixes, no suffixed name is natural to another item, and no link
goes to an item with a suffix (`exports_iff`).
-/
namespace Pergamon.Export

/-! ### Sorting by keys -/

section
variable {α β : Type} {key : α → List Char} {l : List α} {a x : α}

theorem dedup_after_map (same : β → β → Bool) (f : α → β) (a : α) (l : List α) :
    (dedup_after (fun x y => same (f x) (f y)) a l).map f = dedup_after same (f a) (l.map f) := by
  induction l generalizing a with
  | nil => rfl
  | cons b l ih =>
    rw [List.map_cons,dedup_after,dedup_after]
    split_ifs
    · exact ih a
    · rw [List.map_cons,ih b]

theorem dedup_by_map (same : β → β → Bool) (f : α → β) (l : List α) :
    (dedup_by (fun x y => same (f x) (f y)) l).map f = dedup_by same (l.map f) := by
  cases l with
  | nil => rfl
  | cons a l => rw [List.map_cons,dedup_by,dedup_by,List.map_cons,dedup_after_map]

/-- Of a list that is ordered by keys, the first of each key is kept. -/
theorem mem_dedup_after (ordered : (a :: l).Pairwise (fun x y => key x ≤ key y)) :
    x ∈ dedup_after (fun x y => decide (key x = key y)) a l ↔
      key x ≠ key a ∧ (l.filter (fun y => decide (key y = key x))).head? = some x := by
  induction l generalizing a with
  | nil => simp [dedup_after]
  | cons b l ih =>
    obtain ⟨above,rest⟩ := List.pairwise_cons.mp ordered
    obtain ⟨above',_⟩ := List.pairwise_cons.mp rest
    rw [dedup_after]
    by_cases equal : key b = key a
    · have skipped : (a :: l).Pairwise (fun x y => key x ≤ key y) :=
        List.pairwise_cons.mpr ⟨fun y inside => above y (List.mem_cons_of_mem b inside),(List.pairwise_cons.mp rest).2⟩
      rw [if_pos (decide_eq_true equal),ih skipped]
      refine and_congr_right (fun other => ?_)
      rw [List.filter_cons_of_neg (by simpa [equal] using fun same => other same.symm)]
    · rw [if_neg (by simpa using equal),List.mem_cons,ih rest]
      by_cases same : key b = key x
      · rw [List.filter_cons_of_pos (by simpa using same)]
        constructor
        · rintro (rfl | ⟨other,_⟩)
          · exact ⟨equal,rfl⟩
          · exact absurd same.symm other
        · rintro ⟨_,first⟩
          exact Or.inl (Option.some.inj first).symm
      · rw [List.filter_cons_of_neg (by simpa using same)]
        constructor
        · rintro (rfl | ⟨other,first⟩)
          · exact absurd rfl same
          · refine ⟨fun low => ?_,first⟩
            have inside := List.mem_of_mem_filter (List.mem_of_head? first)
            have high := above' x inside
            have between := above b List.mem_cons_self
            rw [low] at high
            exact equal (le_antisymm high between)
        · rintro ⟨_,first⟩
          exact Or.inr ⟨fun low => same low.symm,first⟩

theorem mem_dedup_by (ordered : l.Pairwise (fun x y => key x ≤ key y)) :
    x ∈ dedup_by (fun x y => decide (key x = key y)) l ↔ (l.filter (fun y => decide (key y = key x))).head? = some x := by
  cases l with
  | nil => simp [dedup_by]
  | cons a l =>
    rw [dedup_by,List.mem_cons,mem_dedup_after ordered]
    by_cases same : key a = key x
    · rw [List.filter_cons_of_pos (by simpa using same)]
      constructor
      · rintro (rfl | ⟨other,_⟩)
        · rfl
        · exact absurd same.symm other
      · exact fun first => Or.inl (Option.some.inj first).symm
    · rw [List.filter_cons_of_neg (by simpa using same)]
      constructor
      · rintro (rfl | ⟨_,first⟩)
        · exact absurd rfl same
        · exact first
      · exact fun first => Or.inr ⟨fun low => same low.symm,first⟩

theorem key_trans (x y z : α) (one : decide (key x ≤ key y) = true) (two : decide (key y ≤ key z) = true) :
    decide (key x ≤ key z) = true := by
  simp only [decide_eq_true_eq] at one two ⊢
  exact le_trans one two

theorem key_total (x y : α) : (decide (key x ≤ key y) || decide (key y ≤ key x)) = true := by
  simpa using le_total (key x) (key y)

/-- Sorting by keys keeps the order within each key. -/
theorem filter_mergeSort (k : List Char) : ((l.mergeSort (fun x y => decide (key x ≤ key y))).filter (fun y => decide (key y = k))) =
    l.filter (fun y => decide (key y = k)) := by
  have level : (l.filter (fun y => decide (key y = k))).Pairwise (fun x y => decide (key x ≤ key y) = true) := by
    refine List.pairwise_of_forall_mem_list (fun x inside y inside' => ?_)
    have one : key x = k := by simpa using (List.mem_filter.mp inside).2
    have two : key y = k := by simpa using (List.mem_filter.mp inside').2
    simp [one,two]
  have part := (List.sublist_mergeSort key_trans key_total level List.filter_sublist).filter (fun y => decide (key y = k))
  rw [List.filter_filter] at part
  simp only [Bool.and_self] at part
  refine (part.eq_of_length ?_).symm
  exact ((List.mergeSort_perm l _).filter _).length_eq.symm

/-- Of elements that are sorted by keys and of which each key is kept once, the first of its key is kept. -/
theorem mem_first_of_keys : x ∈ dedup_by (fun x y => decide (key x = key y)) (l.mergeSort (fun x y => decide (key x ≤ key y))) ↔
    (l.filter (fun y => decide (key y = key x))).head? = some x := by
  have ordered := List.pairwise_mergeSort (@key_trans α key) (@key_total α key) l
  rw [mem_dedup_by (ordered.imp (fun less => by simpa using less)),filter_mergeSort]

end

/-! ### Natural names and suffixes -/

/-- The items before an item. -/
def before (items : List ExportItem) (x : ExportItem) : List ExportItem := items.takeWhile (fun e => e.item.id ≠ x.item.id)

/-- An item before this one agrees with it in all that the template shows. -/
def Later (t : SlugTemplate) (items : List ExportItem) (x : ExportItem) : Prop := ∃ e ∈ before items x, Agree t e.item.shown x.item.shown

instance (t : SlugTemplate) (items : List ExportItem) (x : ExportItem) : Decidable (Later t items x) := by
  unfold Later
  infer_instance

/-- The path of an item's file. -/
def path (config : MarkdownExportConfig) (items : List ExportItem) (x : ExportItem) : List Char :=
  if ¬ config.slug_template.has_id ∧ Later config.slug_template items x then suffixed (filename config x.item) x.item.id
  else filename config x.item

section
variable {config : MarkdownExportConfig} {items : List ExportItem} {x y : ExportItem}

theorem filename_eq (config : MarkdownExportConfig) (item : ContentItem) : filename config item = stem config item ++ ".md".toList := rfl

theorem stem_eq_iff : stem config x.item = stem config y.item ↔ Agree config.slug_template x.item.shown y.item.shown :=
  @render_eq_iff x.item.shown y.item.shown config.slug_template

theorem filename_eq_iff : filename config x.item = filename config y.item ↔ Agree config.slug_template x.item.shown y.item.shown := by
  rw [filename_eq,filename_eq,List.append_cancel_right_eq,stem_eq_iff]

theorem before_split {done rest : List ExportItem} (distinct : ((done ++ x :: rest).map (fun e => e.item.id)).Nodup) :
    before (done ++ x :: rest) x = done := by
  have other : ∀ e ∈ done, decide (e.item.id ≠ x.item.id) = true := by
    intro e inside
    refine decide_eq_true (fun same => ?_)
    rw [List.map_append,List.map_cons] at distinct
    refine (List.nodup_append.mp distinct).2.2 e.item.id (List.mem_map_of_mem inside) x.item.id List.mem_cons_self same
  unfold before
  rw [List.takeWhile_append_of_pos other]
  simp

/-- Every item gets a file, in order. -/
theorem plan_eq [Unicode] (distinct : (items.map (fun e => e.item.id)).Nodup) : plan_markdown_export config items =
    items.map (fun x => ⟨path config items x,render_item config x (backlink_index config items),x.item.id⟩) := by
  have run (done rest : List ExportItem) (seen : List Char → Option ℕ) (all : done ++ rest = items)
      (counts : ¬ config.slug_template.has_id → ∀ name, (seen name).getD 0 = (done.filter (fun e => filename config e.item = name)).length) :
      plan_files config (backlink_index config items) seen rest =
        rest.map (fun x => ⟨path config items x,render_item config x (backlink_index config items),x.item.id⟩) := by
    induction rest generalizing done seen with
    | nil => rfl
    | cons x rest ih =>
      have earlier : before items x = done := by
        rw [← all] at distinct ⊢
        exact before_split distinct
      have later (plain : ¬ config.slug_template.has_id) : 1 < (seen (filename config x.item)).getD 0 + 1 ↔ Later config.slug_template items x := by
        rw [counts plain,Later,earlier]
        constructor
        · intro some_item
          obtain ⟨e,inside⟩ := List.exists_mem_of_length_pos (by omega : 0 < (done.filter (fun e => filename config e.item = filename config x.item)).length)
          obtain ⟨there,same⟩ := List.mem_filter.mp inside
          exact ⟨e,there,filename_eq_iff.mp (of_decide_eq_true same)⟩
        · rintro ⟨e,there,agree⟩
          have inside : e ∈ done.filter (fun e => filename config e.item = filename config x.item) :=
            List.mem_filter.mpr ⟨there,decide_eq_true (filename_eq_iff.mpr agree)⟩
          have := List.length_pos_of_mem inside
          omega
      have named : (if ¬ config.slug_template.has_id ∧ 1 < (seen (filename config x.item)).getD 0 + 1 then
          suffixed (filename config x.item) x.item.id else filename config x.item) = path config items x := by
        unfold path
        by_cases plain : ¬ config.slug_template.has_id
        · simp only [plain,later plain]
        · rw [if_neg (fun both => plain both.1),if_neg (fun both => plain both.1)]
      rw [plan_files,List.map_cons]
      simp only [named]
      congr 1
      refine ih (done ++ [x]) _ (by simpa using all) (fun plain name => ?_)
      have kept (table : List Char → Option ℕ) (k : List Char) :
          ((if (table k).isNone then Function.update table k (some 0) else table) name).getD 0 = (table name).getD 0 := by
        split_ifs with unseen
        · by_cases here : name = k
          · rw [here,Function.update_self,Option.isNone_iff_eq_none.mp unseen]
            rfl
          · rw [Function.update_of_ne here]
        · rfl
      rw [kept,if_neg plain,List.filter_append,List.length_append]
      by_cases here : name = filename config x.item
      · rw [here,Function.update_self,counts plain,List.filter_singleton]
        simp
      · rw [Function.update_of_ne here,counts plain,List.filter_cons_of_neg (by simpa using fun same => here same.symm)]
        simp
  exact run [] items (fun _ => none) rfl (fun _ _ => rfl)

/-- What is taken off a text is `.md` as often as it stands there. -/
theorem trim_md_parts (l : List Char) : ∃ k, l.length = (trim_md l).length + 3 * k ∧ l.count '.' = (trim_md l).count '.' + k ∧
    l = trim_md l ++ (List.replicate k ".md".toList).flatten := by
  have back (l : List Char) : ∃ k, l = (List.replicate k ['d','m','.']).flatten ++ trim_md_back l := by
    induction l using trim_md_back.induct with
    | case1 rest ih =>
      obtain ⟨k,same⟩ := ih
      refine ⟨k + 1,?_⟩
      rw [trim_md_back,List.replicate_succ,List.flatten_cons,List.append_assoc,← same]
      rfl
    | case2 l other =>
      refine ⟨0,?_⟩
      rw [trim_md_back]
      · rfl
      · exact other
  obtain ⟨k,same⟩ := back l.reverse
  have whole : l = trim_md l ++ (List.replicate k ".md".toList).flatten := by
    have turned := congrArg List.reverse same
    rw [List.reverse_reverse,List.reverse_append,List.reverse_flatten,List.map_replicate,List.reverse_replicate] at turned
    exact turned
  refine ⟨k,?_,?_,whole⟩
  · conv_lhs => rw [whole]
    simp [Nat.mul_comm]
  · conv_lhs => rw [whole]
    simp [List.count_flatten]

theorem trim_md_inj {l l' : List Char} (dots : l.count '.' = l'.count '.') (same : trim_md l = trim_md l') : l = l' := by
  obtain ⟨k,_,count,whole⟩ := trim_md_parts l
  obtain ⟨k',_,count',whole'⟩ := trim_md_parts l'
  have equal : k = k' := by
    rw [same] at count
    omega
  rw [whole,whole',same,equal]

/-- Suffixed names are told apart by the names and the suffixes. -/
theorem suffixed_eq_iff : suffixed (filename config x.item) x.item.id = suffixed (filename config y.item) y.item.id ↔
    Agree config.slug_template x.item.shown y.item.shown ∧ x.item.id.short = y.item.id.short := by
  have dots : (filename config x.item).count '.' = (filename config y.item).count '.' := by
    rw [filename_eq,filename_eq,List.count_append,List.count_append]
    exact congrArg (· + _) (dots_render x.item.shown y.item.shown config.slug_template.segments)
  unfold suffixed
  rw [List.append_cancel_right_eq]
  constructor
  · intro same
    obtain ⟨names,shorts⟩ := List.append_inj' same (by rw [length_short,length_short])
    exact ⟨filename_eq_iff.mp (trim_md_inj dots (List.append_cancel_right names)),shorts⟩
  · rintro ⟨agree,shorts⟩
    rw [filename_eq_iff.mpr agree,shorts]

/-- A suffixed name is another one: its length is not a number of `.md`s more. -/
theorem suffixed_ne (name : List Char) (id : Uuid) : suffixed name id ≠ name := by
  intro same
  obtain ⟨k,length,_⟩ := trim_md_parts name
  have lengths := congrArg List.length same
  unfold suffixed at lengths
  simp only [List.length_append,length_short] at lengths
  have two : "--".toList.length = 2 := rfl
  have three : ".md".toList.length = 3 := rfl
  omega

/-! ### Names apart -/

/-- Identifiers tell items apart. -/
theorem item_of_id (distinct : (items.map (fun e => e.item.id)).Nodup) (there : x ∈ items) (there' : y ∈ items)
    (same : x.item.id = y.item.id) : x = y := List.inj_on_of_nodup_map distinct there there' same

/-- Of two items one is before the other. -/
theorem before_total (distinct : (items.map (fun e => e.item.id)).Nodup) (there : x ∈ items) (there' : y ∈ items)
    (other : x.item.id ≠ y.item.id) : x ∈ before items y ∨ y ∈ before items x := by
  obtain ⟨done,rest,rfl⟩ := List.append_of_mem there
  rcases List.mem_append.mp there' with first | last
  · rw [before_split distinct]
    exact Or.inr first
  · rcases List.mem_cons.mp last with rfl | later
    · exact absurd rfl other
    · obtain ⟨between,rest,rfl⟩ := List.append_of_mem later
      have parted : done ++ x :: (between ++ y :: rest) = (done ++ x :: between) ++ y :: rest := by simp
      rw [parted] at distinct ⊢
      rw [before_split distinct]
      exact Or.inl (by simp)

/-- Of the items with one name the first has no other before it. -/
theorem exists_first (distinct : (items.map (fun e => e.item.id)).Nodup) (there : y ∈ items) : ∃ x ∈ items,
    Agree config.slug_template x.item.shown y.item.shown ∧ ¬ Later config.slug_template items x := by
  have found : (items.find? (fun e => Agree config.slug_template e.item.shown y.item.shown)).isSome := by
    rw [List.find?_isSome]
    exact ⟨y,there,decide_eq_true (fun _ _ => rfl)⟩
  obtain ⟨x,first⟩ := Option.isSome_iff_exists.mp found
  obtain ⟨agree,done,rest,rfl,none⟩ := List.find?_eq_some_iff_append.mp first
  refine ⟨x,by simp,of_decide_eq_true agree,?_⟩
  rintro ⟨e,inside,agree'⟩
  rw [before_split distinct] at inside
  have other := none e inside
  simp only [Bool.not_eq_true',decide_eq_false_iff_not] at other
  exact other (fun segment shown => (agree' segment shown).trans (of_decide_eq_true agree segment shown))

/-- No two items are given one name. -/
structure NamesApart (config : MarkdownExportConfig) (items : List ExportItem) : Prop where
  shown : config.slug_template.has_id → ∀ x ∈ items, ∀ y ∈ items, x.item.id ≠ y.item.id →
    ¬ Agree config.slug_template x.item.shown y.item.shown
  suffixes : ¬ config.slug_template.has_id → ∀ x ∈ items, ∀ y ∈ items, x.item.id ≠ y.item.id →
    Later config.slug_template items x → Later config.slug_template items y →
    Agree config.slug_template x.item.shown y.item.shown → x.item.id.short ≠ y.item.id.short
  natural : ¬ config.slug_template.has_id → ∀ x ∈ items, ∀ y ∈ items, Later config.slug_template items x →
    suffixed (filename config x.item) x.item.id ≠ filename config y.item

theorem paths_apart_iff (distinct : (items.map (fun e => e.item.id)).Nodup) : (items.map (path config items)).Nodup ↔ NamesApart config items := by
  have pairs : (items.map (path config items)).Nodup ↔ ∀ x ∈ items, ∀ y ∈ items, x.item.id ≠ y.item.id → path config items x ≠ path config items y := by
    rw [List.nodup_map_iff_inj_on distinct.of_map]
    constructor
    · intro inj x there y there' other same
      exact other (congrArg (fun e => e.item.id) (inj x there y there' same))
    · intro apart x there y there' same
      by_contra different
      exact apart x there y there' (fun equal => different (item_of_id distinct there there' equal)) same
  rw [pairs]
  by_cases marked : config.slug_template.has_id
  · have natural (x : ExportItem) : path config items x = filename config x.item := if_neg (fun both => both.1 marked)
    constructor
    · intro apart
      refine ⟨fun _ x there y there' other agree => ?_,fun plain => absurd marked plain,fun plain => absurd marked plain⟩
      refine apart x there y there' other ?_
      rw [natural,natural,filename_eq_iff.mpr agree]
    · intro names x there y there' other same
      rw [natural,natural] at same
      exact names.shown marked x there y there' other (filename_eq_iff.mp same)
  · have late {x : ExportItem} (later : Later config.slug_template items x) : path config items x = suffixed (filename config x.item) x.item.id :=
      if_pos ⟨marked,later⟩
    have first {x : ExportItem} (earliest : ¬ Later config.slug_template items x) : path config items x = filename config x.item :=
      if_neg (fun both => earliest both.2)
    constructor
    · intro apart
      refine ⟨fun plain => absurd plain marked,fun _ x there y there' other later later' agree same => ?_,
        fun _ x there y there' later same => ?_⟩
      · refine apart x there y there' other ?_
        rw [late later,late later',suffixed_eq_iff.mpr ⟨agree,same⟩]
      · obtain ⟨e,inside,agree,earliest⟩ := @exists_first config items y distinct there'
        refine apart x there e inside ?_ ?_
        · intro equal
          rw [item_of_id distinct there inside equal] at later
          exact earliest later
        · rw [late later,first earliest,same,filename_eq_iff.mpr agree]
    · intro names x there y there' other same
      by_cases later : Later config.slug_template items x
      · by_cases later' : Later config.slug_template items y
        · rw [late later,late later'] at same
          obtain ⟨agree,shorts⟩ := suffixed_eq_iff.mp same
          exact names.suffixes marked x there y there' other later later' agree shorts
        · rw [late later,first later'] at same
          exact names.natural marked x there y there' later same
      · by_cases later' : Later config.slug_template items y
        · rw [first later,late later'] at same
          exact names.natural marked y there' x there later' same.symm
        · rw [first later,first later'] at same
          have agree := filename_eq_iff.mp same
          rcases before_total distinct there there' other with earlier | earlier
          · exact later' ⟨x,earlier,agree⟩
          · exact later ⟨y,earlier,agree_symm agree⟩

/-! ### Links -/

/-- The targets of an item's links, with the identifiers that they were found by. -/
def links (index : Uuid → Option BacklinkTarget) (ei : ExportItem) : List (Uuid × BacklinkTarget) :=
  dedup_by (fun a b => a.2.stem = b.2.stem) (((sources ei).filterMap (fun id => (index id).map (fun target => (id,target)))).mergeSort
    (fun a b => a.2.stem ≤ b.2.stem))

/-- Without the identifiers they are the links that are written. -/
theorem links_related (index : Uuid → Option BacklinkTarget) (ei : ExportItem) : (links index ei).map Prod.snd = related index ei := by
  have targets : ((sources ei).filterMap (fun id => (index id).map (fun target => (id,target)))).map Prod.snd =
      (sources ei).filterMap index := by
    rw [List.map_filterMap]
    refine List.filterMap_congr (fun id _ => ?_)
    cases index id <;> rfl
  unfold links related
  rw [dedup_by_map (fun a b : BacklinkTarget => decide (a.stem = b.stem)) Prod.snd,
    @List.map_mergeSort _ _ _ (fun a b : BacklinkTarget => decide (a.stem ≤ b.stem)) _ _ (fun _ _ _ _ => rfl),targets]

/-- The items that an item's highlights come from. -/
def linked (items : List ExportItem) (ei : ExportItem) : List ExportItem :=
  (sources ei).filterMap (fun id => items.find? (fun e => e.item.id = id))

def target (config : MarkdownExportConfig) (x : ExportItem) : BacklinkTarget := ⟨x.item.title,stem config x.item⟩

theorem index_eq (distinct : (items.map (fun e => e.item.id)).Nodup) (backlinks : config.backlinks) (id : Uuid) :
    backlink_index config items id = (items.find? (fun e => e.item.id = id)).map (target config) := by
  have last : (items.filter (fun e => e.item.id = id)).getLast? = items.find? (fun e => e.item.id = id) := by
    rw [← List.head?_filter]
    cases found : items.filter (fun e => e.item.id = id) with
    | nil => rfl
    | cons x rest =>
      have inside (e : ExportItem) (held : e ∈ x :: rest) : e ∈ items ∧ e.item.id = id := by
        rw [← found] at held
        exact ⟨List.mem_of_mem_filter held,by simpa using (List.mem_filter.mp held).2⟩
      have single (e : ExportItem) (held : e ∈ x :: rest) : e = x := by
        obtain ⟨there,same⟩ := inside e held
        obtain ⟨there',same'⟩ := inside x List.mem_cons_self
        exact item_of_id distinct there there' (same.trans same'.symm)
      rw [List.head?_cons,List.getLast?_eq_some_getLast (List.cons_ne_nil x rest),single _ (List.getLast_mem _)]
  unfold backlink_index
  rw [if_pos backlinks,last]
  rfl

/-- A link goes to the first of the items that an item's highlights come from that have one name. -/
theorem mem_links (distinct : (items.map (fun e => e.item.id)).Nodup) (backlinks : config.backlinks) {ei : ExportItem}
    {link : Uuid × BacklinkTarget} : link ∈ links (backlink_index config items) ei ↔ ∃ s,
      (linked items ei).find? (fun r => Agree config.slug_template r.item.shown s.item.shown) = some s ∧ link = (s.item.id,target config s) := by
  have pairs : (sources ei).filterMap (fun id => (backlink_index config items id).map (fun target => (id,target))) =
      (linked items ei).map (fun s => (s.item.id,target config s)) := by
    unfold linked
    rw [List.map_filterMap]
    refine List.filterMap_congr (fun id _ => ?_)
    rw [index_eq distinct backlinks]
    cases found : items.find? (fun e => e.item.id = id) with
    | none => rfl
    | some s =>
      have same : s.item.id = id := by simpa using List.find?_some found
      rw [← same]
      rfl
  have kept : links (backlink_index config items) ei = (dedup_by (fun x y => decide (stem config x.item = stem config y.item))
      ((linked items ei).mergeSort (fun x y => decide (stem config x.item ≤ stem config y.item)))).map (fun s => (s.item.id,target config s)) := by
    have sorted := @List.map_mergeSort _ _ (fun x y : ExportItem => decide (stem config x.item ≤ stem config y.item))
      (fun a b : Uuid × BacklinkTarget => decide (a.2.stem ≤ b.2.stem)) (fun s => (s.item.id,target config s)) (linked items ei)
      (fun _ _ _ _ => rfl)
    unfold links
    rw [pairs,← sorted]
    exact (dedup_by_map (fun a b : Uuid × BacklinkTarget => decide (a.2.stem = b.2.stem)) (fun s => (s.item.id,target config s)) _).symm
  have same_name (s : ExportItem) : (linked items ei).filter (fun r => decide (stem config r.item = stem config s.item)) =
      (linked items ei).filter (fun r => decide (Agree config.slug_template r.item.shown s.item.shown)) := by
    refine List.filter_congr (fun r _ => ?_)
    rw [decide_eq_decide]
    exact stem_eq_iff
  rw [kept,List.mem_map]
  constructor
  · rintro ⟨s,inside,rfl⟩
    have first := (@mem_first_of_keys _ (fun r : ExportItem => stem config r.item) _ _).mp inside
    rw [same_name,List.head?_filter] at first
    exact ⟨s,first,rfl⟩
  · rintro ⟨s,first,rfl⟩
    refine ⟨s,(@mem_first_of_keys _ (fun r : ExportItem => stem config r.item) _ _).mpr ?_,rfl⟩
    rw [same_name,List.head?_filter]
    exact first

/-- No link goes to an item whose file got a suffix. -/
def LinksApart (config : MarkdownExportConfig) (items : List ExportItem) : Prop :=
  config.backlinks → ¬ config.slug_template.has_id → ∀ ei ∈ items, ∀ s,
    (linked items ei).find? (fun r => Agree config.slug_template r.item.shown s.item.shown) = some s → ¬ Later config.slug_template items s

/-- A plan is right: there is one file per item, in order, with a path of its own, and each link is the path
    of the item that it goes to, without `.md`. -/
structure Right [Unicode] (config : MarkdownExportConfig) (items : List ExportItem) : Prop where
  in_order : (plan_markdown_export config items).map (fun file => file.pergamon_id) = items.map (fun e => e.item.id)
  apart : ((plan_markdown_export config items).map (fun file => file.relative_path)).Nodup
  linked : config.backlinks → ∀ ei ∈ items, ∀ link ∈ links (backlink_index config items) ei,
    ∃ file ∈ plan_markdown_export config items, file.pergamon_id = link.1 ∧ file.relative_path = link.2.stem ++ ".md".toList

theorem markdown_right_iff [Unicode] (distinct : (items.map (fun e => e.item.id)).Nodup) :
    Right config items ↔ NamesApart config items ∧ LinksApart config items := by
  have plan := @plan_eq config items _ distinct
  have paths : (plan_markdown_export config items).map (fun file => file.relative_path) = items.map (path config items) := by
    rw [plan,List.map_map]
    rfl
  have stays {s : ExportItem} : path config items s = stem config s.item ++ ".md".toList ↔
      (config.slug_template.has_id ∨ ¬ Later config.slug_template items s) := by
    unfold path
    rw [← filename_eq]
    split_ifs with moved
    · exact ⟨fun same => absurd same (suffixed_ne _ _),fun or => or.elim (fun marked => absurd marked moved.1) (fun earliest => absurd moved.2 earliest)⟩
    · refine ⟨fun _ => ?_,fun _ => rfl⟩
      by_cases marked : config.slug_template.has_id
      · exact Or.inl marked
      · exact Or.inr (fun later => moved ⟨marked,later⟩)
  have there {ei s : ExportItem} (first : (linked items ei).find? (fun r => Agree config.slug_template r.item.shown s.item.shown) = some s) :
      s ∈ items := by
    obtain ⟨id,_,found⟩ := List.mem_filterMap.mp (List.mem_of_find?_eq_some first)
    exact List.mem_of_find?_eq_some found
  constructor
  · intro right
    refine ⟨(paths_apart_iff distinct).mp (paths ▸ right.apart),fun backlinks plain ei inside s first => ?_⟩
    obtain ⟨file,planned,id,same⟩ := right.linked backlinks ei inside _ ((mem_links distinct backlinks).mpr ⟨s,first,rfl⟩)
    rw [plan] at planned
    obtain ⟨x,held,rfl⟩ := List.mem_map.mp planned
    rw [item_of_id distinct held (there first) id] at same
    exact (stays.mp same).resolve_left plain
  · rintro ⟨names,links_apart⟩
    refine ⟨?_,?_,fun backlinks ei inside link written => ?_⟩
    · rw [plan,List.map_map]
      rfl
    · rw [paths]
      exact (paths_apart_iff distinct).mpr names
    · obtain ⟨s,first,rfl⟩ := (mem_links distinct backlinks).mp written
      refine ⟨_,plan ▸ List.mem_map.mpr ⟨s,there first,rfl⟩,rfl,stays.mpr ?_⟩
      by_cases marked : config.slug_template.has_id
      · exact Or.inl marked
      · exact Or.inr (links_apart backlinks marked ei inside s first)

/-! ### Notes of a vault -/

theorem stable_filename_eq_iff {title title' : List Char} {id id' : Uuid} : stable_filename title id = stable_filename title' id' ↔
    slugify title 60 = slugify title' 60 ∧ id.short = id'.short := by
  unfold stable_filename
  rw [List.append_cancel_right_eq]
  constructor
  · intro same
    obtain ⟨slugs,shorts⟩ := List.append_inj' same (by rw [length_short,length_short])
    exact ⟨List.append_cancel_right slugs,shorts⟩
  · rintro ⟨slugs,shorts⟩
    rw [slugs,shorts]

theorem join_path_eq (base : List Char) : ∃ start, ∀ part, join_path base part = start ++ part := by
  unfold join_path
  split_ifs
  · exact ⟨base,fun _ => rfl⟩
  · exact ⟨base ++ ['/'],fun part => by simp⟩

/-- Notes in one folder have one path iff they have one filename. -/
theorem note_path_inj (config : ExportConfig) (folder : String) (x y : ContentItem) : note_path config folder x = note_path config folder y ↔
    slugify x.title.toList 60 = slugify y.title.toList 60 ∧ x.id.short = y.id.short := by
  obtain ⟨start,joined⟩ := join_path_eq (join_path config.folder_name.toList folder.toList)
  unfold note_path
  rw [joined,joined,List.append_cancel_left_eq,stable_filename_eq_iff]

theorem folders_apart (config : ExportConfig) (x y : ContentItem) : note_path config "Highlights" x ≠ note_path config "Bookmarks" y := by
  obtain ⟨start,joined⟩ := join_path_eq config.folder_name.toList
  unfold note_path
  rw [joined,joined]
  obtain ⟨start',joined'⟩ := join_path_eq (start ++ "Highlights".toList)
  intro same
  have prefixed (base part : List Char) : ∃ rest, join_path base part = base ++ rest := by
    unfold join_path
    split_ifs
    · exact ⟨part,rfl⟩
    · exact ⟨'/' :: part,rfl⟩
  obtain ⟨rest,one⟩ := prefixed (start ++ "Highlights".toList) (stable_filename x.title.toList x.id)
  obtain ⟨rest',two⟩ := prefixed (start ++ "Bookmarks".toList) (stable_filename y.title.toList y.id)
  rw [one,two,List.append_assoc,List.append_assoc,List.append_cancel_left_eq] at same
  exact absurd (List.cons.inj same).1 (by decide)

/-- No two items agree in the slugs of their titles and in the first digits of their identifiers. -/
def NotesApart (items : List ContentItem) : Prop := ∀ x ∈ items, ∀ y ∈ items, x.id ≠ y.id →
  ¬ (slugify x.title.toList 60 = slugify y.title.toList 60 ∧ x.id.short = y.id.short)

theorem notes_apart_iff (config : ExportConfig) (folder : String) {items : List ContentItem} (distinct : (items.map (fun item => item.id)).Nodup) :
    (items.map (note_path config folder)).Nodup ↔ NotesApart items := by
  rw [List.nodup_map_iff_inj_on distinct.of_map]
  constructor
  · intro inj x there y there' other same
    exact other (congrArg _ (inj x there y there' ((note_path_inj config folder x y).mpr same)))
  · intro apart x there y there' same
    by_contra different
    exact apart x there y there' (fun equal => different (List.inj_on_of_nodup_map distinct there there' equal))
      ((note_path_inj config folder x y).mp same)

theorem obsidian_right_iff (now : String) (config : ExportConfig) {sources : List SourceBundle} {bookmarks : List BookmarkBundle}
    (distinct : (sources.map (fun bundle => bundle.source.id)).Nodup) (distinct' : (bookmarks.map (fun bundle => bundle.item.id)).Nodup) :
    ((plan_export now config sources bookmarks).files.map (fun file => file.relative_path)).Nodup ↔
      NotesApart (sources.map (fun bundle => bundle.source)) ∧ NotesApart (bookmarks.map (fun bundle => bundle.item)) := by
  have paths : (plan_export now config sources bookmarks).files.map (fun file => file.relative_path) =
      (sources.map (fun bundle => bundle.source)).map (note_path config "Highlights") ++
        (bookmarks.map (fun bundle => bundle.item)).map (note_path config "Bookmarks") := by
    simp [plan_export,Function.comp_def]
  rw [paths,List.nodup_append,notes_apart_iff config "Highlights" (by simpa [Function.comp_def] using distinct),
    notes_apart_iff config "Bookmarks" (by simpa [Function.comp_def] using distinct')]
  constructor
  · rintro ⟨one,two,_⟩
    exact ⟨one,two⟩
  · rintro ⟨one,two⟩
    refine ⟨one,two,fun p inside q inside' => ?_⟩
    obtain ⟨x,_,rfl⟩ := List.mem_map.mp inside
    obtain ⟨y,_,rfl⟩ := List.mem_map.mp inside'
    exact folders_apart config x y

/-! ### Both exports -/

/-- The Markdown export names and links its files right iff names and links are apart, and the Obsidian
    export gives different paths to its notes iff they are apart. -/
theorem exports_iff [Unicode] (config : MarkdownExportConfig) {items : List ExportItem} (distinct : (items.map (fun e => e.item.id)).Nodup)
    (now : String) (vault : ExportConfig) {sources : List SourceBundle} {bookmarks : List BookmarkBundle}
    (distinct_sources : (sources.map (fun bundle => bundle.source.id)).Nodup)
    (distinct_bookmarks : (bookmarks.map (fun bundle => bundle.item.id)).Nodup) :
    (Right config items ↔ NamesApart config items ∧ LinksApart config items) ∧
      (((plan_export now vault sources bookmarks).files.map (fun file => file.relative_path)).Nodup ↔
        NotesApart (sources.map (fun bundle => bundle.source)) ∧ NotesApart (bookmarks.map (fun bundle => bundle.item))) :=
  ⟨markdown_right_iff distinct,obsidian_right_iff now vault distinct_sources distinct_bookmarks⟩

/-- `{title}`. -/
def titles : SlugTemplate := ⟨[.Title],false,by decide⟩

/-- An article with a title and an identifier. -/
def article (title : String) (high : UInt64) : ContentItem :=
  ⟨⟨high,0⟩,none,title,none,.Article,.Archived,none,⟨1970,1,1,⟨by decide,by decide,by decide,by decide⟩,by decide⟩,
    ⟨1970,1,1,⟨by decide,by decide,by decide,by decide⟩,by decide⟩⟩

/-- An article with highlights from others. -/
def exported (title : String) (high : UInt64) (from_ids : List UInt64) : ExportItem :=
  ⟨article title high,[],from_ids.map (fun id => ⟨some ⟨id,0⟩,"",none,none⟩),[]⟩

/-- Articles with one title and other identifiers, and a link between them. -/
theorem exports_iff_titles : @Right Library.plainUnicode ⟨.default,true,.YamlOnly⟩
      [exported "Note" 0x1000000000000000 [],exported "Note" 0x2000000000000000 [0x1000000000000000]] ∧
    ((plan_export "" ⟨"Pergamon",""⟩ [⟨article "Note" 0x1000000000000000,[],[],[]⟩] [⟨article "Note" 0x1000000000000000,[],none⟩]).files.map
      (fun file => file.relative_path)).Nodup := by
  have both := @exports_iff Library.plainUnicode ⟨.default,true,.YamlOnly⟩
    [exported "Note" 0x1000000000000000 [],exported "Note" 0x2000000000000000 [0x1000000000000000]] (by decide) "" ⟨"Pergamon",""⟩
    [⟨article "Note" 0x1000000000000000,[],[],[]⟩] [⟨article "Note" 0x1000000000000000,[],none⟩] (by decide) (by decide)
  refine ⟨both.1.mpr ⟨⟨fun _ => ?_,fun plain => absurd rfl plain,fun plain => absurd rfl plain⟩,fun _ plain => absurd rfl plain⟩,both.2.mpr ⟨?_,?_⟩⟩
  · decide +kernel
  · intro x inside y inside' other
    simp_all
  · intro x inside y inside' other
    simp_all

/-- Two articles with one title whose identifiers begin alike get one path; and with names of titles alone
    a link to the second article of a name is the name of the first. -/
theorem exports_clash :
    ¬ @Right Library.plainUnicode ⟨.default,false,.YamlOnly⟩ [exported "Note" 0x1000000000000000 [],exported "Note" 0x1000000000000001 []] ∧
    ¬ @Right Library.plainUnicode ⟨titles,true,.YamlOnly⟩
      [exported "Note" 0x1000000000000000 [],exported "Note" 0x2000000000000000 [],exported "Other" 0x3000000000000000 [0x2000000000000000]] := by
  constructor
  · rw [@markdown_right_iff _ _ Library.plainUnicode (by decide)]
    rintro ⟨names,_⟩
    exact names.shown rfl _ List.mem_cons_self _ (List.mem_cons_of_mem _ List.mem_cons_self) (by decide) (by decide +kernel)
  · rw [@markdown_right_iff _ _ Library.plainUnicode (by decide)]
    rintro ⟨_,links⟩
    refine links rfl (by decide) (exported "Other" 0x3000000000000000 [0x2000000000000000]) (by simp)
      (exported "Note" 0x2000000000000000 []) ?_ (by decide +kernel)
    have from_second : linked [exported "Note" 0x1000000000000000 [],exported "Note" 0x2000000000000000 [],
        exported "Other" 0x3000000000000000 [0x2000000000000000]] (exported "Other" 0x3000000000000000 [0x2000000000000000]) =
        [exported "Note" 0x2000000000000000 []] := rfl
    rw [from_second]
    simp [Agree]

end

end Pergamon.Export
