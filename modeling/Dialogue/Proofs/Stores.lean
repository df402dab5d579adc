import Dialogue.Proofs.Persistence

/-!
The two stores are interchangeable. Both are held against the list of records saved so far: what is
loaded is the last of them under the identifier, what is listed are their identifiers in ascending
order. As no more than one reply fits a request, the stores cannot be told apart.
-/
namespace Dialogue

structure StoreInterface (σ : Type) where
  save : σ → SessionRecord → σ
  load : σ → Uuid → Except Error (Option SessionRecord)
  list : σ → List Uuid

def MemoryStore.interface : StoreInterface MemoryStore := ⟨save, load, list⟩

def Directory.interface : StoreInterface Directory := ⟨save, load, list⟩

inductive StoreRequest where
  | save (r : SessionRecord)
  | load (id : Uuid)
  | list

inductive StoreReply where
  | saved
  | loaded (outcome : Except Error (Option SessionRecord))
  | listed (ids : List Uuid)

namespace StoreRequest

def record? : StoreRequest → Option SessionRecord
  | save r => some r
  | _ => none

def records (requests : List StoreRequest) : List SessionRecord := requests.filterMap record?

end StoreRequest

namespace StoreInterface

variable {σ : Type} (store : StoreInterface σ)

def serve (s : σ) : StoreRequest → σ × StoreReply
  | .save r => (store.save s r, .saved)
  | .load id => (s, .loaded (store.load s id))
  | .list => (s, .listed (store.list s))

def serveAll (s : σ) : List StoreRequest → σ × List StoreReply
  | [] => (s, [])
  | request :: rest =>
    let (next, reply) := store.serve s request
    let (final, replies) := serveAll next rest
    (final, reply :: replies)

theorem length_serveAll (s : σ) (requests : List StoreRequest) :
    (store.serveAll s requests).2.length = requests.length := by
  induction requests generalizing s with
  | nil => rfl
  | cons request rest ih => simp [serveAll, ih]

end StoreInterface

/-! What a store is to reply. -/

def lastSaved (saved : List SessionRecord) (id : Uuid) : Option SessionRecord :=
  saved.reverse.find? (·.id = id)

/-- The identifiers of all records saved, each once, in ascending order. -/
structure Listed (saved : List SessionRecord) (ids : List Uuid) : Prop where
  ascending : ids.Pairwise fun a b => compare a b = .lt
  complete : ∀ id, id ∈ ids ↔ ∃ r ∈ saved, r.id = id

inductive Fitting (saved : List SessionRecord) : StoreRequest → StoreReply → Prop
  | save (r) : Fitting saved (.save r) .saved
  | load (id) : Fitting saved (.load id) (.loaded (.ok (lastSaved saved id)))
  | list {ids} (listed : Listed saved ids) : Fitting saved .list (.listed ids)

variable {saved : List SessionRecord} {r : SessionRecord} {id : Uuid}

theorem lastSaved_append : lastSaved (saved ++ [r]) id =
    if r.id = id then some r else lastSaved saved id := by
  by_cases same : r.id = id <;> simp [lastSaved, same]

theorem mem_of_lastSaved (last : lastSaved saved id = some r) : r ∈ saved :=
  List.mem_reverse.mp (List.mem_of_find?_eq_some last)

theorem isSome_lastSaved : (lastSaved saved id).isSome = true ↔ ∃ r ∈ saved, r.id = id := by
  simp [lastSaved]

theorem Listed.unique {ids others : List Uuid} (h : Listed saved ids) (h' : Listed saved others) :
    ids = others := by
  have distinct {l : List Uuid} (ascending : l.Pairwise fun a b => compare a b = .lt) : l.Nodup :=
    ascending.imp fun lt same => by simp [same] at lt
  have perm : ids.Perm others :=
    (List.perm_ext_iff_of_nodup (distinct h.ascending) (distinct h'.ascending)).mpr fun id => by
      rw [h.complete, h'.complete]
  refine perm.eq_of_pairwise (fun a b _ _ below above => ?_) h.ascending h'.ascending
  simp [Std.OrientedCmp.gt_of_lt below] at above

theorem Fitting.unique {request : StoreRequest} {reply other : StoreReply}
    (h : Fitting saved request reply) (h' : Fitting saved request other) : reply = other := by
  cases h with
  | save | load => cases h'; rfl
  | list listed =>
    cases h' with
    | list listed' => rw [listed.unique listed']

/-! Stores that reply as they should. -/

/-- The texts can carry the numbers of a record: its counters have 64 bits, and its confidences are
finite and come back from their texts. -/
structure SessionRecord.Writable (r : SessionRecord) : Prop where
  counters : ∀ k ∈ r.state.counters, k < 2 ^ 64
  trail : ∀ x ∈ r.trail, ∀ k ∈ x.counters, k < 2 ^ 64
  confidences : ∀ x ∈ r.state.confidences, x.isFinite = true ∧ Json.Exact x

theorem SessionRecord.Writable.texts (h : r.Writable) :
    ofText (Json.compact (toDatum r)) = .ok r ∧ ofText (Directory.fileText r) = .ok r :=
  ofText_of_admitted
    ⟨writable_int64, fun k member => writable_counter (h.counters k member), h.confidences⟩
    fun x member k among => writable_counter (h.trail x member k among)

/-- Whatever has been saved, what the store holds tells all that may be asked about it. -/
structure StoreInterface.Faithful {σ : Type} (store : StoreInterface σ)
    (Holds : List SessionRecord → σ → Prop) : Prop where
  save {saved s r} (h : Holds saved s) : Holds (saved ++ [r]) (store.save s r)
  load {saved s} (h : Holds saved s) (writable : ∀ r ∈ saved, r.Writable) (id) :
    store.load s id = .ok (lastSaved saved id)
  list {saved s} (h : Holds saved s) : Listed saved (store.list s)

namespace StoreInterface.Faithful

variable {σ : Type} {store : StoreInterface σ} {Holds : List SessionRecord → σ → Prop} {s : σ}

theorem serve (faithful : store.Faithful Holds) (h : Holds saved s)
    (writable : ∀ r ∈ saved, r.Writable) (request : StoreRequest) :
    Fitting saved request (store.serve s request).2 ∧
      Holds (saved ++ request.record?.toList) (store.serve s request).1 := by
  cases request with
  | save r => exact ⟨.save r, faithful.save h⟩
  | load id =>
    refine ⟨?_, by simpa [StoreRequest.record?, StoreInterface.serve] using h⟩
    simpa [StoreInterface.serve, faithful.load h writable] using Fitting.load id
  | list =>
    exact ⟨.list (faithful.list h), by simpa [StoreRequest.record?, StoreInterface.serve] using h⟩

/-- Every reply fits its request, with the records saved before it. -/
theorem serveAll (faithful : store.Faithful Holds) {requests : List StoreRequest}
    (h : Holds saved s) (writable : ∀ r ∈ saved ++ StoreRequest.records requests, r.Writable) :
    ∀ i request, requests[i]? = some request → ∃ reply,
      (store.serveAll s requests).2[i]? = some reply ∧
        Fitting (saved ++ StoreRequest.records (requests.take i)) request reply := by
  induction requests generalizing s saved with
  | nil => simp
  | cons first rest ih =>
    obtain ⟨fits, after⟩ :=
      faithful.serve h (fun r member => writable r (List.mem_append_left _ member)) first
    have split (l : List StoreRequest) : saved ++ StoreRequest.records (first :: l) =
        saved ++ first.record?.toList ++ StoreRequest.records l := by
      cases first <;> simp [StoreRequest.records, StoreRequest.record?, List.filterMap_cons]
    intro i request found
    cases i with
    | zero =>
      cases found
      exact ⟨(store.serve s first).2, rfl, by simpa [StoreRequest.records] using fits⟩
    | succ i =>
      rw [split] at writable
      simpa [StoreInterface.serveAll, split] using ih after writable i request found

end StoreInterface.Faithful

/-! The store in memory. -/

structure MemoryStore.Holds (saved : List SessionRecord) (m : MemoryStore) : Prop where
  texts : ∀ id, m.texts.get? id = (lastSaved saved id).map fun r => Json.compact (toDatum r)

theorem MemoryStore.faithful : MemoryStore.interface.Faithful MemoryStore.Holds where
  save {saved m r} h := by
    refine ⟨fun id => ?_⟩
    by_cases same : r.id = id
    · simp [interface, MemoryStore.save, lastSaved_append, same]
    · simp [interface, MemoryStore.save, lastSaved_append, same, h.texts,
        OrderedMap.get?_insert_of_ne _ _ (Ne.symm same)]
  load {saved m} h writable id := by
    cases last : lastSaved saved id with
    | none => simp [interface, MemoryStore.load, h.texts, last, pure, Except.pure]
    | some r =>
      have read := (writable r (mem_of_lastSaved last)).texts.1
      simp [interface, MemoryStore.load, h.texts, last, read, Except.map]
  list {saved m} h := by
    refine ⟨m.texts.keys_ascending, fun id => ?_⟩
    simp only [interface, MemoryStore.list]
    rw [OrderedMap.mem_keys_iff, h.texts, Option.isSome_map, isSome_lastSaved]

/-! The directory. -/

namespace Directory

/-- A file is recognised by the name that its session gave it. -/
theorem sessionOf?_fileName (id : Uuid) : sessionOf? (fileName id) = some id := by
  obtain ⟨last, others, stem⟩ : ∃ last others, id.toText.toList.reverse = last :: others :=
    List.exists_cons_of_ne_nil (by simp [Uuid.toText, Uuid.hyphenated])
  have split : splitExtension (fileName id) = (id.toText.toList, some "json".toList) := by
    have back : others.reverse ++ [last] = id.toText.toList := by
      rw [← List.reverse_cons, ← stem, List.reverse_reverse]
    simp [splitExtension, fileName, stem, back]
  simp only [sessionOf?, split, if_true, String.ofList_toList, Uuid.parse?_toText]

structure Holds (saved : List SessionRecord) (d : Directory) : Prop where
  files : ∀ id, d.files.get? (fileName id) = (lastSaved saved id).map fileText
  names : ∀ name ∈ d.files.keys, ∃ id, name = fileName id

theorem fileName_inj {a b : Uuid} (same : fileName a = fileName b) : a = b := by
  simpa [sessionOf?_fileName] using congrArg sessionOf? same

/-- Names of sessions are recognised, all of them. -/
theorem map_fileName {names : List String} (all : ∀ name ∈ names, ∃ id, name = fileName id) :
    (names.filterMap sessionOf?).map fileName = names := by
  induction names with
  | nil => rfl
  | cons name rest ih =>
    obtain ⟨⟨id, rfl⟩, others⟩ := List.forall_mem_cons.mp all
    simp [sessionOf?_fileName, ih others]

theorem Holds.save {d : Directory} (h : d.Holds saved) : (d.save r).Holds (saved ++ [r]) := by
  constructor
  · intro id
    by_cases same : r.id = id
    · simp [Directory.save, lastSaved_append, same]
    · have other : fileName id ≠ fileName r.id := fun equal => same (fileName_inj equal).symm
      simp [Directory.save, lastSaved_append, same, h.files,
        OrderedMap.get?_insert_of_ne _ _ other]
  · intro name member
    by_cases own : name = fileName r.id
    · exact ⟨r.id, own⟩
    · refine h.names name ?_
      rwa [OrderedMap.mem_keys_iff, Directory.save, OrderedMap.get?_insert_of_ne _ _ own,
        ← OrderedMap.mem_keys_iff] at member

theorem Holds.list {d : Directory} (h : d.Holds saved) : Listed saved d.list := by
  have distinct : (d.files.keys.filterMap sessionOf?).Nodup := by
    refine List.Nodup.of_map fileName ?_
    rw [map_fileName h.names]
    exact d.files.keys_ascending.imp fun lt same => by simp [same] at lt
  have sorted : d.list.Pairwise fun a b => (compare a b).isLE = true :=
    List.pairwise_mergeSort (fun _ _ _ => Std.TransCmp.isLE_trans) (fun a b => by
      cases order : compare a b <;> simp [order, Std.OrientedCmp.lt_of_gt]) _
  have once : d.list.Nodup := (List.mergeSort_perm _ _).nodup_iff.mpr distinct
  refine ⟨sorted.imp₂ (fun a b le ne => ?_) once, fun id => ?_⟩
  · cases order : compare a b with
    | lt => rfl
    | eq => exact (ne (Std.LawfulEqCmp.eq_of_compare order)).elim
    | gt => simp [order] at le
  · have named : id ∈ d.list ↔ fileName id ∈ d.files.keys := by
      rw [Directory.list, List.mem_mergeSort, List.mem_filterMap]
      constructor
      · rintro ⟨name, member, reads⟩
        obtain ⟨other, rfl⟩ := h.names name member
        rw [sessionOf?_fileName] at reads
        exact Option.some.inj reads ▸ member
      · exact fun member => ⟨_, member, sessionOf?_fileName id⟩
    rw [named, OrderedMap.mem_keys_iff, h.files, Option.isSome_map, isSome_lastSaved]

theorem faithful : interface.Faithful fun saved d => Holds saved d where
  save h := h.save
  load {saved d} h writable id := by
    cases last : lastSaved saved id with
    | none => simp [interface, Directory.load, h.files, last, pure, Except.pure]
    | some r =>
      have read := (writable r (mem_of_lastSaved last)).texts.2
      simp [interface, Directory.load, h.files, last, read, Except.map]
  list h := h.list

end Directory

/-- The stores are interchangeable. Whatever records are saved, as long as the texts can carry their
numbers, and whatever is loaded and listed in between, a fresh store in memory and a directory that
was not made yet give the same replies: loading gives the last record saved under the identifier, if
there is one, and listing gives the identifiers of the records saved, each once, in ascending
order. -/
theorem stores_interchangeable {requests : List StoreRequest}
    (writable : ∀ r, .save r ∈ requests → r.Writable) :
    (MemoryStore.interface.serveAll {} requests).2 = (Directory.interface.serveAll {} requests).2 ∧
      ∀ i request, requests[i]? = some request → ∃ reply,
        (MemoryStore.interface.serveAll {} requests).2[i]? = some reply ∧
          Fitting (StoreRequest.records (requests.take i)) request reply := by
  have all : ∀ r ∈ [] ++ StoreRequest.records requests, r.Writable := fun r member => by
    obtain ⟨request, among, saves⟩ := List.mem_filterMap.mp member
    cases request with
    | save r' => exact Option.some.inj saves ▸ writable r' among
    | load | list => cases saves
  have fresh : MemoryStore.Holds [] {} := ⟨fun _ => rfl⟩
  have missing : Directory.Holds [] {} := ⟨fun _ => rfl, fun _ member => nomatch member⟩
  have memory := MemoryStore.faithful.serveAll fresh all
  have directory := Directory.faithful.serveAll missing all
  refine ⟨List.ext_getElem? fun i => ?_, memory⟩
  cases asked : requests[i]? with
  | none =>
    have beyond := List.getElem?_eq_none_iff.mp asked
    rw [List.getElem?_eq_none (by simpa [StoreInterface.length_serveAll] using beyond),
      List.getElem?_eq_none (by simpa [StoreInterface.length_serveAll] using beyond)]
  | some request =>
    obtain ⟨reply, replied, fits⟩ := memory i request asked
    obtain ⟨other, replied', fits'⟩ := directory i request asked
    rw [replied, replied', fits.unique fits']

def busyStore : List StoreRequest :=
  [.list, .load ⟨7⟩, .save halfHeardRecord, .load ⟨7⟩, .save { halfHeardRecord with id := ⟨3⟩ },
    .save { halfHeardRecord with trail := [] }, .load ⟨7⟩, .list]

theorem busyStore_interchangeable :
    (∀ r, .save r ∈ busyStore → r.Writable) ∧
      (MemoryStore.interface.serveAll {} busyStore).2 =
        (Directory.interface.serveAll {} busyStore).2 := by
  have writable : ∀ r, .save r ∈ busyStore → r.Writable := by
    intro r member
    have confidences : ∀ x ∈ halfHeardRecord.state.confidences,
        x.isFinite = true ∧ Json.Exact x := by decide +kernel
    simp only [busyStore, List.mem_cons, StoreRequest.save.injEq, reduceCtorEq, false_or,
      List.not_mem_nil, or_false] at member
    obtain rfl | rfl | rfl := member
    all_goals exact ⟨by decide, by decide, confidences⟩
  exact ⟨writable, (stores_interchangeable writable).1⟩

end Dialogue
