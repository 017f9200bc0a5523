import Interop.Proofs.Bridge.Lowering
import Interop.Proofs.Memory.Entries
import Interop.Proofs.Memory.Frame

/-! # What lowering leaves behind

Every block that is made while the arguments of a call are lowered is noted in the frame, but for
those of arrays that are given away and those of texts that are stored in an array or a slot. The
latter are told by the plan and the values of the caller. They are left behind as well when a later
argument fails.
-/

namespace Interop

open Schema Relation Steps

variable {H : Host}

/-! ## What is not noted -/

mutual

/-- The sizes of the blocks that are made for a value and not noted: those of arrays that are given
away, and of texts in arrays. -/
def Descriptor.lasting (descriptor : Descriptor) (value : Value) : List Nat :=
  match descriptor, value with
  | .array element ownership length _ elementSize, .array items =>
    if items.isEmpty && length != .zeroTerminated then []
    else
      (if ownership = .full then [max (arrayBytes items.length elementSize length) 1] else []) ++
        Descriptor.lastingItems element items
  | _, _ => []

/-- The sizes of such blocks for the items of an array. -/
def Descriptor.lastingItems (element : Descriptor) : List Value → List Nat
  | [] => []
  | item :: rest =>
    Descriptor.lasting element item ++
      (element.stored item ++ Descriptor.lastingItems element rest)

end

/-- The sizes of such blocks for a value that is passed for an argument. A text behind a slot is
stored as well. -/
def CallArg.lasting (arg : CallArg) (value : Value) : List Nat :=
  match arg.descriptor with
  | .reference inner =>
    if arg.flags.output then inner.lasting value ++ inner.stored value
    else arg.descriptor.lasting value
  | descriptor => descriptor.lasting value

/-- The sizes of such blocks for a native argument. -/
def CallArg.lastingOf (values : List Value) (arg : CallArg) : List Nat :=
  match arg.source with
  | .caller visible => (values[visible]?).elim [] arg.lasting
  | _ => []

/-- The sizes of such blocks for all native arguments, the oldest block first. -/
def CallPlan.lasting (plan : CallPlan) (values : List Value) : List Nat :=
  plan.args.flatMap (·.lastingOf values)

namespace Calling

/-- The blocks that the frame knows of. -/
def noted (calling : Calling H) : List Handle :=
  calling.frame.scratch.toList ++ calling.frame.records.map (·.2)

/-- Those of the entries that the frame does not know of. -/
def unnoted (calling : Calling H) (entries : List (Nat × Nat)) : List (Nat × Nat) :=
  entries.filter fun entry => Handle.ofNat entry.1 ∉ calling.noted

/-- The heap has come past every block that the frame knows of. -/
def Reached (calling : Calling H) : Prop :=
  ∀ handle ∈ calling.noted, handle.toNat < calling.bridge.heap.next

/-- Between the two states blocks were made, of which those of the sizes are not noted at most. What
was noted still is, and what is noted has been made. -/
structure Accounts (sizes : List Nat) (calling calling' : Calling H) : Prop where
  noted : calling.noted ⊆ calling'.noted
  reached : calling.Reached → calling'.Reached
  made : ∃ new : List (Nat × Nat),
    calling'.bridge.heap.entries = new.reverse ++ calling.bridge.heap.entries ∧
      ((calling'.unnoted new).map (·.2)).Sublist sizes

variable {calling calling' calling'' : Calling H} {sizes sizes' : List Nat}

theorem Reached.of_next_le (h : calling.Reached) (hnoted : calling'.noted = calling.noted)
    (hnext : calling.bridge.heap.next ≤ calling'.bridge.heap.next) : calling'.Reached :=
  fun handle hmem => Nat.lt_of_lt_of_le (h handle (hnoted ▸ hmem)) hnext

theorem accounts_of_eq (hheap : calling'.bridge.heap = calling.bridge.heap)
    (hnoted : calling'.noted = calling.noted) : Accounts sizes calling calling' where
  noted := hnoted ▸ List.Subset.refl _
  reached h := h.of_next_le hnoted (Nat.le_of_eq (by rw [hheap]))
  made := ⟨[], by rw [hheap]; rfl, List.nil_sublist _⟩

/-- A block is made and noted. -/
theorem accounts_of_alloc (size : Nat) (typeName : Option String)
    (hheap : calling'.bridge.heap = (calling.bridge.heap.alloc size typeName).2)
    (hnoted : ∀ handle, handle ∈ calling'.noted ↔
      handle ∈ calling.noted ∨ handle = .ofNat calling.bridge.heap.next) :
    Accounts sizes calling calling' where
  noted _ hmem := (hnoted _).2 (.inl hmem)
  reached hreached handle hmem := by
    have hnext := Heap.lt_next_alloc calling.bridge.heap size typeName
    rw [hheap]
    rcases (hnoted handle).1 hmem with hold | rfl
    · have hlt := hreached handle hold
      omega
    · have hle := Handle.toNat_ofNat_le calling.bridge.heap.next
      omega
  made := by
    refine ⟨[(calling.bridge.heap.next, max size 1)],
      by rw [hheap, Heap.entries_alloc]; rfl, ?_⟩
    rw [unnoted, List.filter_cons_of_neg (by simpa using (hnoted _).2 (.inr rfl))]
    exact List.nil_sublist _

theorem unnoted_sublist (h : calling.noted ⊆ calling'.noted) (entries : List (Nat × Nat)) :
    (calling'.unnoted entries).Sublist (calling.unnoted entries) := by
  refine List.monotone_filter_right entries fun entry hentry => ?_
  simp only [decide_eq_true_eq] at hentry ⊢
  exact fun hmem => hentry (h hmem)

theorem Accounts.trans (h : Accounts sizes calling calling')
    (h' : Accounts sizes' calling' calling'') : Accounts (sizes ++ sizes') calling calling'' := by
  obtain ⟨new, hnew, hsizes⟩ := h.made
  obtain ⟨later, hlater, hsizes'⟩ := h'.made
  refine ⟨List.Subset.trans h.noted h'.noted, h'.reached ∘ h.reached, new ++ later, ?_, ?_⟩
  · rw [hlater, hnew, List.reverse_append, List.append_assoc]
  · rw [unnoted, List.filter_append, List.map_append]
    exact (((unnoted_sublist h'.noted new).map _).trans hsizes).append hsizes'

theorem Accounts.mono (h : Accounts sizes calling calling') (hle : sizes.Sublist sizes') :
    Accounts sizes' calling calling' := by
  obtain ⟨new, hnew, hsizes⟩ := h.made
  exact ⟨h.noted, h.reached, new, hnew, hsizes.trans hle⟩

end Calling

namespace Lowering

open Bridge Calling

variable {α β : Type} {step : Lowering H α} {sizes sizes' : List Nat}

/-- Whether the step succeeds or stops half way, of the blocks that it makes those of the sizes are
not noted at most. -/
def Leaving (sizes : List Nat) (step : Lowering H α) : Prop :=
  ∀ calling, Accounts sizes calling (ending (step calling))

theorem leaving_pure (a : α) : Leaving sizes (pure a : Lowering H α) :=
  fun _ => accounts_of_eq rfl rfl

theorem leaving_throw (error : BindError) : Leaving sizes (throw error : Lowering H α) :=
  fun _ => accounts_of_eq rfl rfl

theorem leaving_get : Leaving [] (get : Lowering H (Calling H)) :=
  fun _ => accounts_of_eq rfl rfl

theorem Leaving.bind_of_ok {next : α → Lowering H β} (h : Leaving sizes step)
    (hnext : ∀ calling a calling', step calling = .ok a calling' →
      Accounts sizes' calling' (ending (next a calling'))) :
    Leaving (sizes ++ sizes') (step >>= next) := by
  intro calling
  have hfirst := h calling
  cases hstep : step calling with
  | ok a calling' =>
      rw [hstep] at hfirst
      rw [bind_eq_of_eq_ok hstep]
      exact hfirst.trans (hnext calling a calling' hstep)
  | error error calling' =>
      rw [hstep] at hfirst
      rw [bind_eq_of_eq_error hstep]
      exact hfirst.mono (List.sublist_append_left _ _)

theorem Leaving.bind {next : α → Lowering H β} (h : Leaving sizes step)
    (hnext : ∀ a, Leaving sizes' (next a)) : Leaving (sizes ++ sizes') (step >>= next) :=
  h.bind_of_ok fun _ a calling' _ => hnext a calling'

theorem Leaving.bind_of_nil {next : α → Lowering H β} (h : Leaving [] step)
    (hnext : ∀ a, Leaving sizes (next a)) : Leaving sizes (step >>= next) :=
  h.bind hnext

theorem Leaving.bind_pure (h : Leaving sizes step) (f : α → β) :
    Leaving sizes (step >>= fun a => pure (f a)) := by
  rw [← List.append_nil sizes]
  exact h.bind fun a => leaving_pure (f a)

theorem leaving_forM {step : α → Lowering H PUnit} {sizes : α → List Nat}
    (h : ∀ item, Leaving (sizes item) (step item)) (items : List α) :
    Leaving (items.flatMap sizes) (items.forM step) := by
  induction items with
  | nil => exact leaving_pure _
  | cons item rest ih =>
      rw [List.flatMap_cons]
      exact (h item).bind fun _ => ih

theorem leaving_update {step : Bridge H → α × Bridge H}
    (h : ∀ bridge, (step bridge).2.heap = bridge.heap) : Leaving sizes (update step) :=
  fun calling => accounts_of_eq (h calling.bridge) rfl

/-- The frame may come to know more, but not of blocks. -/
theorem leaving_modifyFrame {f : Frame → Frame}
    (hscratch : ∀ frame, (f frame).scratch = frame.scratch)
    (hrecords : ∀ frame, (f frame).records = frame.records) :
    Leaving sizes (modifyFrame f : Lowering H Unit) := by
  refine fun calling => accounts_of_eq rfl ?_
  show (f calling.frame).scratch.toList ++ (f calling.frame).records.map (·.2) = calling.noted
  rw [hscratch, hrecords, noted]

/-! ## Blocks -/

theorem ending_onBridge_inCall (step : Native H α) (calling : Calling H) :
    ending (onBridge (inCall step) calling) =
      { calling with bridge := ending (step calling.bridge) } := by
  unfold onBridge inCall
  cases step calling.bridge <;> rfl

theorem leaving_scratch (size : Nat) : Leaving [] (scratch size : Lowering H Handle) := by
  intro calling
  have hnoted : (ending (scratch size calling)).noted =
      (calling.frame.scratch.push (.ofNat calling.bridge.heap.next)).toList ++
        calling.frame.records.map (·.2) := rfl
  refine accounts_of_alloc size none rfl fun handle => ?_
  rw [hnoted, noted]
  simp only [Array.toList_push, List.mem_append, List.mem_singleton]
  tauto

theorem leaving_alloc (size : Nat) (typeName library : Option String) :
    Leaving [max size 1]
      (onBridge (inCall (Bridge.alloc size typeName library)) : Lowering H Handle) := by
  intro calling
  rw [ending_onBridge_inCall]
  rcases alloc_eq size typeName library calling.bridge with hmade | ⟨_, _, hmissing⟩
  · rw [hmade]
    have hnext := Heap.lt_next_alloc calling.bridge.heap size typeName
    refine ⟨List.Subset.refl _, fun h => h.of_next_le rfl (by dsimp only [ending]; omega),
      [(calling.bridge.heap.next, max size 1)], rfl, ?_⟩
    exact (List.filter_sublist).map _
  · rw [hmissing]
    exact accounts_of_eq rfl rfl

theorem leaving_write (handle : Handle) (descriptor : Descriptor) (offset : Nat) (value : Value) :
    Leaving (descriptor.stored value)
      (write handle descriptor offset value : Lowering H Unit) := by
  intro calling
  obtain ⟨new, hnew, hsizes⟩ :=
    Heap.exists_entries_write handle descriptor offset value calling.bridge.heap
  have hnext := (Heap.framed_write handle descriptor offset value calling.bridge.heap).next_le
  rw [write, ending_onBridge_inCall, Bridge.write, ending_onHeap]
  exact ⟨List.Subset.refl _, fun h => h.of_next_le rfl hnext, new, hnew,
    ((List.filter_sublist).map _).trans hsizes⟩

theorem leaving_slot (descriptor : Descriptor) :
    Leaving [] (slot descriptor : Lowering H Handle) :=
  leaving_scratch _

/-! ## Values -/

/-- Only a text is lowered to a text. -/
theorem stored_of_lowerValue_eq_ok {descriptor : Descriptor} {value lowered : Value}
    {calling calling' : Calling H}
    (h : lowerValue descriptor value calling = .ok lowered calling') :
    descriptor.stored lowered = descriptor.stored value := by
  cases descriptor with
  | string ownership =>
      cases value <;> rw [lowerValue] at h
      all_goals first | (cases h; rfl) | simp
  | _ => rfl

/-- The items of an array are lowered and stored one by one. -/
theorem leaving_lowerValue_lowerItems :
    (∀ (descriptor : Descriptor) (value : Value),
      Leaving (descriptor.lasting value) (lowerValue descriptor value : Lowering H Value)) ∧
    ∀ (handle : Handle) (element : Descriptor) (elementSize index : Nat) (items : List Value),
      Leaving (element.lastingItems items)
        (lowerItems handle element elementSize index items : Lowering H Unit) := by
  apply @lowerValue_induction H
    (fun descriptor value => Leaving (descriptor.lasting value))
    (fun _ element _ _ items => Leaving (element.lastingItems items))
  case hgives => exact fun _ _ _ => leaving_pure _
  case hrefuses => exact fun _ _ _ => leaving_throw _
  case hkept =>
    intro element length kind elementSize items hempty hitems
    rw [Descriptor.lasting, if_neg hempty, if_pos rfl]
    refine (leaving_alloc _ _ _).bind fun handle => ?_
    exact (hitems handle).bind_pure _
  case hlent =>
    intro element ownership length kind elementSize items hempty hlends hitems
    rw [Descriptor.lasting, if_neg hempty, if_neg hlends]
    refine (leaving_scratch _).bind fun handle => ?_
    exact (hitems handle).bind_pure _
  case hnil => exact fun _ _ _ _ => leaving_pure _
  case hcons =>
    intro handle element elementSize index item rest hitem hrest
    rw [Descriptor.lastingItems]
    refine hitem.bind_of_ok fun calling lowered calling' hlowered => ?_
    rw [← stored_of_lowerValue_eq_ok hlowered]
    exact ((leaving_write _ _ _ _).bind fun _ => hrest) calling'

theorem leaving_lowerValue (descriptor : Descriptor) (value : Value) :
    Leaving (descriptor.lasting value) (lowerValue descriptor value : Lowering H Value) :=
  leaving_lowerValue_lowerItems.1 descriptor value

theorem leaving_lowerCaller (arg : CallArg) (value : Value) :
    Leaving (arg.lasting value) (lowerCaller arg value : Lowering H Value) := by
  obtain ⟨name, descriptor, source, flags⟩ := arg
  cases descriptor with
  | reference inner =>
      simp only [lowerCaller, CallArg.lasting]
      split
      next =>
        refine (leaving_slot _).bind_of_nil fun handle => ?_
        refine (leaving_lowerValue inner value).bind_of_ok fun calling lowered calling' h => ?_
        rw [← stored_of_lowerValue_eq_ok h]
        exact ((leaving_write handle inner 0 lowered).bind_pure _) calling'
      next => exact leaving_lowerValue _ _
  | _ => exact leaving_lowerValue _ _

/-! ## Arguments -/

theorem stored_countValue (descriptor : Descriptor) (count : Nat) :
    descriptor.stored (countValue descriptor count) = [] := by
  cases descriptor <;> rfl

theorem leaving_lowerLength (arg : CallArg) (count : Nat) :
    Leaving [] (lowerLength arg count : Lowering H Value) := by
  unfold lowerLength
  split
  next =>
    refine (leaving_slot _).bind_of_nil fun handle => ?_
    dsimp only
    split
    next inner _ =>
      rw [← stored_countValue inner count]
      exact (leaving_write handle inner 0 _).bind_pure _
    next => exact (leaving_pure _).bind_of_nil fun _ => leaving_pure _
  next => exact leaving_pure _

/-- A record that the caller makes is noted as such. -/
theorem leaving_lowerOutput (env : Env H) (arg : CallArg) (index : Nat) :
    Leaving [] (lowerOutput env arg index) := by
  unfold lowerOutput
  split
  next size typeName library _ =>
    intro calling
    rcases alloc_eq size (some typeName) (some library) calling.bridge with
      hmade | ⟨missing, _, hmissing⟩
    · have hstep : onBridge (inCall (Bridge.alloc size (some typeName) (some library))) calling =
          .ok (.ofNat calling.bridge.heap.next) { calling with bridge := { calling.bridge with
            heap := (calling.bridge.heap.alloc size (some typeName)).2 } } := by
        rw [onBridge, inCall, hmade]
        rfl
      rw [bind_eq_of_eq_ok hstep]
      refine accounts_of_alloc size (some typeName) rfl fun handle => ?_
      show handle ∈ calling.frame.scratch.toList ++
        (calling.frame.records ++ [(index, Handle.ofNat calling.bridge.heap.next)]).map (·.2) ↔ _
      simp only [noted, List.map_append, List.mem_append, List.map_cons, List.map_nil,
        List.mem_singleton]
      tauto
    · have hstep : onBridge (inCall (Bridge.alloc size (some typeName) (some library))) calling =
          .error (.dispatch (.libraryNotFound missing)) calling := by
        rw [onBridge, inCall, hmissing]
      rw [bind_eq_of_eq_error hstep]
      exact accounts_of_eq rfl rfl
  next => exact (leaving_slot _).bind_of_nil fun _ => leaving_pure _

theorem leaving_lowerNotify (callback : Nat) :
    Leaving [] (lowerNotify callback : Lowering H Value) := by
  refine leaving_get.bind_of_nil fun calling => ?_
  split
  next => exact leaving_pure _
  next passed _ =>
    have hnotify : Leaving [] (update (newCallback (.destroyNotify passed.token) []) :
        Lowering H CallbackId) := leaving_update fun _ => rfl
    refine hnotify.bind_of_nil fun _ => ?_
    refine Leaving.bind_of_nil (leaving_modifyFrame ?_ ?_) fun _ => leaving_pure _ <;>
      exact fun _ => rfl

theorem leaving_lowerArg (env : Env H) (plan : CallPlan) (receiver : Option Value)
    (values : List Value) (arg : CallArg) (index : Nat) :
    Leaving (arg.lastingOf values) (lowerArg env plan receiver values arg index) := by
  cases hsource : arg.source with
  | receiver =>
      simp only [lowerArg, CallArg.lastingOf, hsource]
      split
      next => exact leaving_pure _
      next => exact leaving_throw _
  | caller visible =>
      simp only [lowerArg, CallArg.lastingOf, hsource]
      refine leaving_get.bind_of_nil fun calling => ?_
      split
      next => exact leaving_pure _
      next =>
        cases values[visible]? with
        | some value => exact leaving_lowerCaller arg value
        | none => exact leaving_pure _
  | arrayLength array =>
      simp only [lowerArg, CallArg.lastingOf, hsource]
      exact leaving_lowerLength _ _
  | returnLength | errorSlot =>
      simp only [lowerArg, CallArg.lastingOf, hsource]
      exact (leaving_slot _).bind_of_nil fun _ => leaving_pure _
  | outSlot =>
      simp only [lowerArg, CallArg.lastingOf, hsource]
      exact leaving_lowerOutput _ _ _
  | closureData callback =>
      simp only [lowerArg, CallArg.lastingOf, hsource]
      exact leaving_get.bind_of_nil fun _ => leaving_pure _
  | destroyNotify callback =>
      simp only [lowerArg, CallArg.lastingOf, hsource]
      exact leaving_lowerNotify _

theorem leaving_prepareCallback (values : List Value) (arg : CallArg) (index : Nat) :
    Leaving [] (prepareCallback values arg index : Lowering H Unit) := by
  unfold prepareCallback
  split
  next =>
    split
    next =>
      refine (leaving_update (heap_passOn _ _ _)).bind_of_nil fun _ => ?_
      refine (leaving_update (heap_registerClosure _ _)).bind_of_nil fun _ => ?_
      exact leaving_modifyFrame (fun _ => rfl) fun _ => rfl
    next => exact leaving_pure _
  next => exact leaving_pure _

/-- Of the blocks that lowering makes, only arrays that are given away and texts that are stored are
not noted, also if it stops half way. -/
theorem leaving_lower (env : Env H) (plan : CallPlan) (receiver : Option Value)
    (values : List Value) : Leaving (plan.lasting values) (lower env plan receiver values) := by
  have hcallbacks : Leaving [] (plan.args.zipIdx.forM fun entry =>
      prepareCallback values entry.1 entry.2 : Lowering H PUnit) := by
    have hforM := leaving_forM
      (fun entry => leaving_prepareCallback (H := H) values entry.1 entry.2) plan.args.zipIdx
    have hnone : plan.args.zipIdx.flatMap (fun _ => ([] : List Nat)) = [] := by
      simp [List.flatMap_eq_nil_iff]
    rwa [hnone] at hforM
  have hargs : plan.lasting values =
      plan.args.zipIdx.flatMap fun entry => entry.1.lastingOf values := by
    conv_lhs => rw [CallPlan.lasting, ← List.zipIdx_map_fst 0 plan.args, List.flatMap_map]
  rw [hargs]
  refine hcallbacks.bind_of_nil fun _ => leaving_forM (fun entry => ?_) _
  rw [← List.append_nil (entry.1.lastingOf values)]
  exact (leaving_lowerArg env plan receiver values entry.1 entry.2).bind fun _ =>
    leaving_modifyFrame (fun _ => rfl) fun _ => rfl

end Lowering

end Interop
