import DdnsIpv6.Lib.Traced
import DdnsIpv6.Prefix.Ra

/-!
# What the parser evaluates

The parser once more, as a computation that reports every index expression, the difference of `usize` values, every
assignment to the offset, the inner guard and every iteration. Without the reports it is the parser
(`result_parseRaTraced`); it reports every iteration of the parser's loop (`iterations_parseRaTraced`), and the parser
depends on no byte whose index is not reported (`parseRaPacket_congr`). On untrusted input each of these is safe, and
the iterations are bounded by the length of the packet (`parseRaTraced_safe`).
-/

namespace DdnsIpv6.Prefix.Ra

open Lib Traced

/-! ## The parser with its events -/

inductive RaEvent where
  /-- The loop condition holds and the loop body starts. -/
  | iteration (offset : Nat)
  /-- The index expression `data[i]`. -/
  | index (i : Nat)
  /-- The difference `a - b`. -/
  | subtract (a b : Nat)
  /-- The offset is increased. -/
  | advance (offset offset' : Nat)
  /-- The inner guard is evaluated. -/
  | guard (exceeded : Bool)
  deriving DecidableEq, Repr

def index (data : List UInt8) (i : Nat) : Traced RaEvent UInt8 := attempt (.index i) data[i]?

def subtract (a b : Nat) : Traced RaEvent Nat := attempt (.subtract a b) (if a < b then none else some (a - b))

def advance (offset n : Nat) : Traced RaEvent Nat := attempt (.advance offset (offset + n)) (some (offset + n))

/-- The end of the loop body and the `continue` statements. -/
def advanceBy (offset n : Nat) : Traced RaEvent RaStep := do
  let offset ← advance offset n
  pure (.next offset)

def readSegmentsTraced (data : List UInt8) (start : Nat) : Traced RaEvent (List UInt16) :=
  (List.range 8).mapM fun i => do
    let hi ← index data (start + i * 2)
    let lo ← index data (start + i * 2 + 1)
    pure (fromBeBytes hi lo)

/-- The loop body at `offset`. -/
def raBodyTraced (data : List UInt8) (offset : Nat) : Traced RaEvent RaStep := do
  let optType ← index data offset
  let optLen ← index data (offset + 1)
  let offset ← advance offset 2
  if optLen = 0 then pure (.done none)
  else do
    let optDataLen ← subtract (optLen.toNat * 8) 2
    if data.length < offset + optDataLen then pure (.done none)
    else if optType = 3 then
      if optDataLen < 30 then advanceBy offset optDataLen
      else do
        let flags ← index data (offset + 1)
        if flags &&& 0x40 = 0 then advanceBy offset optDataLen
        else do
          let prefixStart := offset + 14
          emit (.guard (data.length < prefixStart + 16))
          if data.length < prefixStart + 16 then pure (.done none)
          else do
            let segments ← readSegmentsTraced data prefixStart
            let pfx := Ipv6Addr.ofSegments segments
            if isGlobalUnicast pfx then pure (.done (some (maskTo64 pfx))) else advanceBy offset optDataLen
    else advanceBy offset optDataLen

/-- The loop. -/
def raLoopTraced (data : List UInt8) : Nat → Nat → Traced RaEvent RaResult
  | 0, _ => pure .unfinished
  | fuel + 1, offset =>
    if data.length < offset + 2 then pure (.returned none)
    else do
      emit (.iteration offset)
      match ← raBodyTraced data offset with
      | .panicked => pure .panicked
      | .done r => pure (.returned r)
      | .next offset => raLoopTraced data fuel offset

def parseRaTraced (data : List UInt8) : Traced RaEvent RaResult :=
  if data.length < 16 then pure (.returned none)
  else do
    let t ← index data 0
    if t ≠ 134 then pure (.returned none) else raLoopTraced data data.length 16

/-! ## Without the events -/

@[simp] theorem result_index (data : List UInt8) (i : Nat) : (index data i).result = data[i]? := rfl

@[simp] theorem result_subtract (a b : Nat) : (subtract a b).result = if a < b then none else some (a - b) := rfl

@[simp] theorem result_advance (offset n : Nat) : (advance offset n).result = some (offset + n) := rfl

@[simp] theorem result_advanceBy (offset n : Nat) : (advanceBy offset n).result = some (.next (offset + n)) := rfl

@[simp] theorem result_readSegmentsTraced (data : List UInt8) (start : Nat) :
    (readSegmentsTraced data start).result = readSegments data start :=
  result_mapM _ _

/-- The loop body without its events. -/
theorem result_raBodyTraced {data : List UInt8} {offset : Nat} (h : offset + 2 ≤ data.length) :
    (raBodyTraced data offset).result.getD .panicked = raStep data offset := by
  unfold raBodyTraced raStep
  rw [if_neg (Nat.not_lt.2 h)]
  simp only [result_bind, result_index, result_advance, Option.bind_some]
  cases data[offset]? with
  | none => rfl
  | some optType =>
    cases data[offset + 1]? with
    | none => rfl
    | some optLen =>
      simp only [Option.bind_some]
      by_cases hz : optLen = 0
      · rw [if_pos hz, if_pos hz]
        rfl
      rw [if_neg hz, if_neg hz, result_bind, result_subtract]
      by_cases hu : optLen.toNat * 8 < 2
      · rw [if_pos hu, if_pos hu]
        rfl
      rw [if_neg hu, if_neg hu, Option.bind_some]
      generalize optLen.toNat * 8 - 2 = optDataLen
      by_cases hl : data.length < offset + 2 + optDataLen
      · rw [if_pos hl, if_pos hl]
        rfl
      rw [if_neg hl, if_neg hl]
      by_cases ht : optType = 3
      · rw [if_pos ht, if_pos ht]
        by_cases hs : optDataLen < 30
        · rw [if_pos hs, if_pos hs]
          rfl
        rw [if_neg hs, if_neg hs, result_bind, result_index]
        cases data[offset + 2 + 1]? with
        | none => rfl
        | some flags =>
          simp only [Option.bind_some]
          by_cases ha : flags &&& 0x40 = 0
          · rw [if_pos ha, if_pos ha]
            rfl
          rw [if_neg ha, if_neg ha, result_bind, result_emit, Option.bind_some]
          by_cases hg : data.length < offset + 2 + 14 + 16
          · rw [if_pos hg, if_pos hg]
            rfl
          rw [if_neg hg, if_neg hg, result_bind, result_readSegmentsTraced]
          cases readSegments data (offset + 2 + 14) with
          | none => rfl
          | some segments =>
            simp only [Option.bind_some]
            split <;> rfl
      · rw [if_neg ht, if_neg ht]
        rfl

/-- The loop without its events, wherever its body returns. -/
theorem result_raLoopTraced {data : List UInt8} : ∀ fuel offset,
    (raLoopTraced data fuel offset).result.getD .panicked = raLoop data fuel offset
  | 0, _ => rfl
  | fuel + 1, offset => by
    unfold raLoopTraced raLoop
    by_cases h : data.length < offset + 2
    · rw [if_pos h, raStep, if_pos h]
      rfl
    · rw [if_neg h, ← result_raBodyTraced (Nat.not_lt.1 h), result_bind, result_emit, Option.bind_some, result_bind]
      cases (raBodyTraced data offset).result with
      | none => rfl
      | some s =>
        cases s with
        | panicked => rfl
        | done r => rfl
        | next offset => exact result_raLoopTraced fuel offset

/-- **The parser** without its events. -/
theorem result_parseRaTraced (data : List UInt8) :
    (parseRaTraced data).result.getD .panicked = parseRaPacket data := by
  unfold parseRaTraced parseRaPacket
  by_cases h : data.length < 16
  · rw [if_pos h, if_pos h]
    rfl
  · rw [if_neg h, if_neg h, result_bind, result_index]
    cases data[0]? with
    | none => rfl
    | some t =>
      simp only [Option.bind_some]
      by_cases ht : t ≠ 134
      · rw [if_pos ht, if_pos ht]
        rfl
      · rw [if_neg ht, if_neg ht]
        exact result_raLoopTraced _ _

/-! ## What is reported -/

/-- The packets have one length. -/
def SameLength (data data' : List UInt8) : Prop := data'.length = data.length

/-- The packets agree in the byte that is read. -/
def RaEvent.Agree : RaEvent → List UInt8 → List UInt8 → Prop
  | .index i, data, data' => data'[i]? = data[i]?
  | _, _, _ => True

/-- Of the bytes of the packet, it reads those whose index it reports. -/
abbrev ReadsReported {α : Type} (x : List UInt8 → Traced RaEvent α) : Prop := Reads SameLength RaEvent.Agree x

theorem reads_index (i : Nat) : ReadsReported fun data => index data i := reads_attempt fun _ _ _ h => h

theorem reads_fixed {α : Type} (x : Traced RaEvent α) : ReadsReported fun _ => x := reads_of_same fun _ _ _ => rfl

theorem reads_ite_length {α : Type} {n : Nat} {x y : List UInt8 → Traced RaEvent α} (hx : ReadsReported x)
    (hy : ReadsReported y) : ReadsReported fun data => if data.length < n then x data else y data :=
  reads_ite (fun data data' hs => by rw [SameLength] at hs; rw [hs]) hx hy

theorem reads_ite_fixed {α : Type} {c : Prop} [Decidable c] {x y : List UInt8 → Traced RaEvent α}
    (hx : ReadsReported x) (hy : ReadsReported y) : ReadsReported fun data => if c then x data else y data :=
  reads_ite (fun _ _ _ => Iff.rfl) hx hy

theorem reads_readSegmentsTraced (start : Nat) : ReadsReported fun data => readSegmentsTraced data start := by
  refine reads_mapM (fun i => reads_bind (reads_index (start + i * 2)) fun hi => ?_) _
  exact reads_bind (reads_index (start + i * 2 + 1)) fun lo => reads_fixed (pure (fromBeBytes hi lo))

/-- The loop body. -/
theorem reads_raBodyTraced (offset : Nat) : ReadsReported fun data => raBodyTraced data offset := by
  refine reads_bind (reads_index offset) fun optType => reads_bind (reads_index (offset + 1)) fun optLen => ?_
  refine reads_bind (reads_fixed (advance offset 2)) fun offset => reads_ite_fixed (reads_fixed _) ?_
  refine reads_bind (reads_fixed _) fun optDataLen => reads_ite_length (reads_fixed _) (reads_ite_fixed ?_ ?_)
  · refine reads_ite_fixed (reads_fixed _) (reads_bind (reads_index _) fun flags => ?_)
    refine reads_ite_fixed (reads_fixed _) (reads_bind ?_ fun _ => reads_ite_length (reads_fixed _) ?_)
    · -- the guard looks at the length only
      refine reads_of_same fun data data' hs => ?_
      rw [SameLength] at hs
      rw [hs]
    · exact reads_bind (reads_readSegmentsTraced _) fun segments => reads_ite_fixed (reads_fixed _) (reads_fixed _)
  · exact reads_fixed _

theorem reads_raLoopTraced : ∀ fuel offset, ReadsReported fun data => raLoopTraced data fuel offset
  | 0, _ => reads_fixed _
  | fuel + 1, offset => by
    refine reads_ite_length (reads_fixed _) (reads_bind (reads_fixed _) fun _ => ?_)
    refine reads_bind (reads_raBodyTraced offset) fun s => ?_
    cases s with
    | panicked => exact reads_fixed _
    | done r => exact reads_fixed _
    | next offset' => exact reads_raLoopTraced fuel offset'

theorem reads_parseRaTraced : ReadsReported parseRaTraced := by
  refine reads_ite_length (reads_fixed _) (reads_bind (reads_index 0) fun t => reads_ite_fixed (reads_fixed _) ?_)
  intro data data' hs ha
  have hfuel : data'.length = data.length := hs
  simp only [hfuel]
  exact reads_raLoopTraced data.length 16 data data' hs ha

/-- **The parser depends on no other bytes** than those whose index is reported. -/
theorem parseRaPacket_congr {data data' : List UInt8} (hlen : data'.length = data.length)
    (h : ∀ i, .index i ∈ (parseRaTraced data).events → data'[i]? = data[i]?) :
    parseRaPacket data' = parseRaPacket data := by
  have hagree : ∀ e ∈ (parseRaTraced data).events, e.Agree data data' := by
    intro e he
    cases e with
    | index i => exact h i he
    | _ => trivial
  rw [← result_parseRaTraced, ← result_parseRaTraced, reads_parseRaTraced data data' hlen hagree]

/-! ## Safety -/

/-- The index is inside the data, the difference does not underflow, the offset increases and stays in the data, and the
inner guard is false. -/
def RaEvent.Safe (data : List UInt8) : RaEvent → Prop
  | .iteration offset => offset + 2 ≤ data.length
  | .index i => i < data.length
  | .subtract a b => b ≤ a
  | .advance offset offset' => offset < offset' ∧ offset' ≤ data.length
  | .guard exceeded => exceeded = false

def RaEvent.iteration? : RaEvent → Option Nat
  | .iteration offset => some offset
  | _ => none

/-- The offsets at which the iterations start. -/
def iterations (events : List RaEvent) : List Nat := events.filterMap RaEvent.iteration?

/-- The offsets at which the loop of the parser runs its body. -/
def raLoopOffsets (data : List UInt8) : Nat → Nat → List Nat
  | 0, _ => []
  | fuel + 1, offset =>
    if data.length < offset + 2 then []
    else offset :: match raStep data offset with
      | .next offset' => raLoopOffsets data fuel offset'
      | _ => []

/-- Those of the whole parser. -/
def raOffsets (data : List UInt8) : List Nat :=
  if 16 ≤ data.length ∧ data[0]? = some 134 then raLoopOffsets data data.length 16 else []

/-- The events of a loop body are safe and start no iteration. -/
def RaEvent.InBody (data : List UInt8) (e : RaEvent) : Prop := e.Safe data ∧ e.iteration? = none

/-- How a loop body ends: the loop is over, or goes on at least eight bytes later. -/
def RaStep.Advances (data : List UInt8) (offset : Nat) : RaStep → Prop
  | .panicked => False
  | .done _ => True
  | .next offset' => offset + 8 ≤ offset' ∧ offset' ≤ data.length

variable {data : List UInt8}

theorem ensures_index {i : Nat} (h : i < data.length) : Ensures (RaEvent.InBody data) (index data i) fun _ => True := by
  rw [index, List.getElem?_eq_getElem h]
  exact ensures_attempt ⟨h, rfl⟩ trivial

theorem ensures_subtract {a b : Nat} (h : b ≤ a) : Ensures (RaEvent.InBody data) (subtract a b) (· = a - b) := by
  rw [subtract, if_neg (Nat.not_lt.2 h)]
  exact ensures_attempt ⟨h, rfl⟩ rfl

theorem ensures_advance {offset n : Nat} (hn : 0 < n) (h : offset + n ≤ data.length) :
    Ensures (RaEvent.InBody data) (advance offset n) (· = offset + n) :=
  ensures_attempt ⟨⟨Nat.lt_add_of_pos_right hn, h⟩, rfl⟩ rfl

theorem ensures_advanceBy {start offset n : Nat} (hn : start + 8 ≤ offset + n) (hs : 0 < n)
    (h : offset + n ≤ data.length) :
    Ensures (RaEvent.InBody data) (advanceBy offset n) (RaStep.Advances data start) := by
  refine ensures_bind (ensures_advance hs h) ?_
  rintro _ rfl
  exact ensures_pure ⟨hn, h⟩

theorem ensures_readSegmentsTraced {start : Nat} (h : start + 16 ≤ data.length) :
    Ensures (RaEvent.InBody data) (readSegmentsTraced data start) fun _ => True := by
  refine ensures_mapM fun i hi => ?_
  rw [List.mem_range] at hi
  exact ensures_bind (ensures_index (by omega)) fun _ _ => ensures_bind (ensures_index (by omega)) fun _ _ =>
    ensures_pure trivial

/-- **The loop body** is safe, and goes on only after a whole option. -/
theorem ensures_raBodyTraced {offset : Nat} (h : offset + 2 ≤ data.length) :
    Ensures (RaEvent.InBody data) (raBodyTraced data offset) (RaStep.Advances data offset) := by
  refine ensures_bind (ensures_index (by omega)) fun optType _ => ?_
  refine ensures_bind (ensures_index (by omega)) fun optLen _ => ?_
  refine ensures_bind (ensures_advance (by omega) h) ?_
  rintro _ rfl
  by_cases hz : optLen = 0
  · rw [if_pos hz]
    exact ensures_pure trivial
  have hpos : 0 < optLen.toNat := by
    rw [Nat.pos_iff_ne_zero]
    exact fun h0 => hz (UInt8.toNat_inj.1 h0)
  rw [if_neg hz]
  refine ensures_bind (ensures_subtract (by omega)) ?_
  rintro _ rfl
  by_cases hl : data.length < offset + 2 + (optLen.toNat * 8 - 2)
  · rw [if_pos hl]
    exact ensures_pure trivial
  rw [if_neg hl]
  have hnext : Ensures (RaEvent.InBody data) (advanceBy (offset + 2) (optLen.toNat * 8 - 2))
      (RaStep.Advances data offset) := ensures_advanceBy (by omega) (by omega) (by omega)
  by_cases ht : optType = 3
  · rw [if_pos ht]
    by_cases hs : optLen.toNat * 8 - 2 < 30
    · rw [if_pos hs]
      exact hnext
    rw [if_neg hs]
    -- from here on the option is known to hold its 32 bytes
    refine ensures_bind (ensures_index (by omega)) fun flags _ => ?_
    by_cases ha : flags &&& 0x40 = 0
    · rw [if_pos ha]
      exact hnext
    rw [if_neg ha]
    have hg : ¬data.length < offset + 2 + 14 + 16 := by omega
    refine ensures_bind (ensures_emit ⟨decide_eq_false hg, rfl⟩) fun _ _ => ?_
    rw [if_neg hg]
    refine ensures_bind (ensures_readSegmentsTraced (by omega)) fun segments _ => ?_
    by_cases hu : isGlobalUnicast (Ipv6Addr.ofSegments segments) = true
    · rw [if_pos hu]
      exact ensures_pure trivial
    · rw [if_neg hu]
      exact hnext
  · rw [if_neg ht]
    exact hnext

/-- What the loop evaluates from `offset` on. -/
structure LoopRun (data : List UInt8) (offset : Nat) (x : Traced RaEvent RaResult) : Prop where
  safe : Ensures (RaEvent.Safe data) x fun r => ∃ p, r = .returned p
  after : ∀ i ∈ iterations x.events, offset ≤ i
  increasing : (iterations x.events).Pairwise (· < ·)
  count : 8 * (iterations x.events).length ≤ data.length - offset + 6

theorem loopRun_pure {offset : Nat} (p : Option Ipv6Addr) : LoopRun data offset (pure (.returned p)) where
  safe := ensures_pure ⟨p, rfl⟩
  after := fun _ h => absurd h List.not_mem_nil
  increasing := List.Pairwise.nil
  count := Nat.zero_le _

theorem iterations_eq_nil {events : List RaEvent} (h : ∀ e ∈ events, e.InBody data) : iterations events = [] :=
  List.filterMap_eq_nil_iff.2 fun e he => (h e he).2

/-- The iterations from one on whose body ends in `s`. -/
theorem iterations_cons {offset : Nat} {body : Traced RaEvent RaStep} {f : RaStep → Traced RaEvent RaResult}
    {s : RaStep} (hbody : ∀ e ∈ body.events, e.InBody data) (hs : body.result = some s) :
    iterations (emit (.iteration offset) >>= fun _ => body >>= f).events = offset :: iterations (f s).events := by
  have hsplit : (emit (.iteration offset) >>= fun _ => body >>= f).events =
      [.iteration offset] ++ (body.events ++ (f s).events) := by
    rw [events_bind, result_emit, Option.elim_some, events_bind, hs]
    rfl
  rw [hsplit, iterations, List.filterMap_append, List.filterMap_append, ← iterations, ← iterations,
    iterations_eq_nil hbody]
  rfl

/-- An iteration whose body ends in `s`, before what follows it. -/
theorem LoopRun.iteration {offset : Nat} {body : Traced RaEvent RaStep} {f : RaStep → Traced RaEvent RaResult}
    {s : RaStep} (h : offset + 2 ≤ data.length) (hbody : ∀ e ∈ body.events, e.InBody data) (hs : body.result = some s)
    (hsafe : Ensures (RaEvent.Safe data) (f s) fun r => ∃ p, r = .returned p)
    (hafter : ∀ i ∈ iterations (f s).events, offset < i) (hinc : (iterations (f s).events).Pairwise (· < ·))
    (hcount : 8 * (iterations (f s).events).length + 2 ≤ data.length - offset) :
    LoopRun data offset (emit (.iteration offset) >>= fun _ => body >>= f) := by
  have hevents : iterations (emit (.iteration offset) >>= fun _ => body >>= f).events =
      offset :: iterations (f s).events := iterations_cons hbody hs
  constructor
  · refine ensures_bind (ensures_emit h) fun _ _ => ?_
    have hbody' : Ensures (RaEvent.Safe data) body (· = s) := ⟨fun e he => (hbody e he).1, s, hs, rfl⟩
    refine ensures_bind hbody' ?_
    rintro _ rfl
    exact hsafe
  · rw [hevents]
    exact List.forall_mem_cons.2 ⟨Nat.le_refl _, fun i hi => Nat.le_of_lt (hafter i hi)⟩
  · rw [hevents]
    exact List.pairwise_cons.2 ⟨hafter, hinc⟩
  · rw [hevents, List.length_cons]
    omega

/-- **Every iteration of the loop is reported**, with its offset. -/
theorem iterations_raLoopTraced : ∀ fuel offset,
    iterations (raLoopTraced data fuel offset).events = raLoopOffsets data fuel offset
  | 0, _ => rfl
  | fuel + 1, offset => by
    unfold raLoopTraced raLoopOffsets
    by_cases h : data.length < offset + 2
    · rw [if_pos h, if_pos h]
      rfl
    · obtain ⟨hevents, s, hs, -⟩ := ensures_raBodyTraced (Nat.not_lt.1 h)
      rw [if_neg h, if_neg h, iterations_cons hevents hs, ← result_raBodyTraced (Nat.not_lt.1 h), hs, Option.getD_some]
      cases s with
      | panicked | done r => rfl
      | next offset' => rw [iterations_raLoopTraced fuel offset']

theorem iterations_parseRaTraced (data : List UInt8) : iterations (parseRaTraced data).events = raOffsets data := by
  unfold parseRaTraced raOffsets
  by_cases h : data.length < 16
  · rw [if_pos h, if_neg fun hc => Nat.not_le.2 h hc.1]
    rfl
  · obtain ⟨t, ht⟩ : ∃ t, data[0]? = some t := ⟨data[0], List.getElem?_eq_getElem (by omega)⟩
    have hevents : ∀ f : UInt8 → Traced RaEvent RaResult,
        iterations (index data 0 >>= f).events = iterations (f t).events := by
      intro f
      rw [events_bind, result_index, ht, Option.elim_some, iterations, List.filterMap_append]
      rfl
    rw [if_neg h, hevents, ht]
    by_cases htype : t = 134
    · rw [if_neg (not_not.2 htype), if_pos ⟨Nat.not_lt.1 h, congrArg some htype⟩, iterations_raLoopTraced]
    · rw [if_pos htype, if_neg fun hc => htype (Option.some.inj hc.2)]
      rfl

/-- **The loop** is safe and makes an iteration for each eight bytes at most. -/
theorem raLoopTraced_run : ∀ {fuel offset : Nat}, offset ≤ data.length → data.length - offset < fuel →
    LoopRun data offset (raLoopTraced data fuel offset)
  | 0, _, _, hf => absurd hf (Nat.not_lt_zero _)
  | fuel + 1, offset, ho, hf => by
    unfold raLoopTraced
    by_cases h : data.length < offset + 2
    · rw [if_pos h]
      exact loopRun_pure none
    rw [if_neg h]
    obtain ⟨hevents, s, hs, hadv⟩ := ensures_raBodyTraced (Nat.not_lt.1 h)
    cases s with
    | panicked => exact hadv.elim
    | done p =>
      have hrest : LoopRun data offset (pure (.returned p)) := loopRun_pure p
      exact LoopRun.iteration (Nat.not_lt.1 h) hevents hs hrest.safe (fun _ hi => absurd hi List.not_mem_nil)
        hrest.increasing (by simp only [events_pure, iterations, List.filterMap_nil, List.length_nil]; omega)
    | next offset' =>
      obtain ⟨hnext, hlen⟩ := hadv
      have hrest := raLoopTraced_run hlen (show data.length - offset' < fuel by omega)
      have hcount : 8 * (iterations (raLoopTraced data fuel offset').events).length + 2 ≤ data.length - offset := by
        have := hrest.count
        omega
      refine LoopRun.iteration (Nat.not_lt.1 h) hevents hs hrest.safe (fun i hi => ?_) hrest.increasing hcount
      have := hrest.after i hi
      omega

/-- The iterations that go on. -/
theorem raStep_next {offset offset' : Nat} (h : raStep data offset = .next offset') :
    offset < offset' ∧ offset' ≤ data.length := by
  by_cases hc : data.length < offset + 2
  · rw [raStep, if_pos hc] at h
    cases h
  · obtain ⟨-, s, hs, hadv⟩ := ensures_raBodyTraced (Nat.not_lt.1 hc)
    rw [← result_raBodyTraced (Nat.not_lt.1 hc), hs, Option.getD_some] at h
    subst h
    exact ⟨by have := hadv.1; omega, hadv.2⟩

/-- An index expression before the loop. -/
theorem LoopRun.after_index {offset i : Nat} {f : UInt8 → Traced RaEvent RaResult} (h : i < data.length)
    (hf : ∀ t, LoopRun data offset (f t)) : LoopRun data offset (index data i >>= f) := by
  obtain ⟨t, ht⟩ : ∃ t, (index data i).result = some t := ⟨data[i], List.getElem?_eq_getElem h⟩
  have hevents : iterations (index data i >>= f).events = iterations (f t).events := by
    rw [events_bind, ht, Option.elim_some, iterations, List.filterMap_append]
    rfl
  have hrun := hf t
  refine ⟨ensures_bind (Q := (· = t)) ⟨?_, t, ht, rfl⟩ ?_, hevents ▸ hrun.after, hevents ▸ hrun.increasing,
    hevents ▸ hrun.count⟩
  · exact fun e he => List.mem_singleton.1 he ▸ h
  · rintro _ rfl
    exact hrun.safe

/-- What the parser evaluates, with its header. -/
theorem parseRaTraced_run (data : List UInt8) : LoopRun data 16 (parseRaTraced data) := by
  unfold parseRaTraced
  by_cases h : data.length < 16
  · rw [if_pos h]
    exact loopRun_pure none
  · rw [if_neg h]
    refine LoopRun.after_index (by omega) fun t => ?_
    by_cases ht : t ≠ 134
    · rw [if_pos ht]
      exact loopRun_pure none
    · rw [if_neg ht]
      exact raLoopTraced_run (by omega) (by omega)

/-- **The parser is safe on untrusted input.** On every string of bytes it returns, every index expression is inside the
data, the difference does not underflow, the inner guard is false, and the offset only grows and stays inside the data,
in at most one iteration more than there are eight bytes after the header. All iterations of the loop are among those
that are reported here, and all bytes that the result depends on are read at an index that is reported. -/
theorem parseRaTraced_safe (data : List UInt8) :
    (∃ r, parseRaPacket data = .returned r ∧ (parseRaTraced data).result = some (.returned r)) ∧
    (∀ e ∈ (parseRaTraced data).events, e.Safe data) ∧
    (∀ offset offset', raStep data offset = .next offset' → offset < offset' ∧ offset' ≤ data.length) ∧
    (iterations (parseRaTraced data).events).Pairwise (· < ·) ∧
    (iterations (parseRaTraced data).events).length ≤ (data.length - 16) / 8 + 1 ∧
    iterations (parseRaTraced data).events = raOffsets data ∧
    ∀ data' : List UInt8, data'.length = data.length →
      (∀ i, .index i ∈ (parseRaTraced data).events → data'[i]? = data[i]?) →
        parseRaPacket data' = parseRaPacket data := by
  have hrun := parseRaTraced_run data
  obtain ⟨hevents, _, hr, p, rfl⟩ := hrun.safe
  refine ⟨⟨p, ?_, hr⟩, hevents, fun _ _ => raStep_next, hrun.increasing, ?_, iterations_parseRaTraced data,
    fun data' hlen h => parseRaPacket_congr hlen h⟩
  · rw [← result_parseRaTraced, hr, Option.getD_some]
  · have := hrun.count
    omega

end DdnsIpv6.Prefix.Ra
