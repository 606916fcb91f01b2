import QuantyCoin.LeafSigning

/-!
# Signing of P2MR outputs

The loop of `SignP2MR` over the leaves of an output, with its nested calls.  A nested
call goes through all leaves of the call around it, the leaf that started it among them,
and so never returns.  `produceSignature_returns_iff` and
`produceSignature_neverAsserts_iff` say which leaves decide how signing ends.  The loop
stops at the first leaf that it does not get past, be it for the assertion of `CreateSig`,
a nested call or an exception of Miniscript.
-/

namespace QuantyCoin.Signing

open ByteDecoder FailingFolds

variable {signing : Signing}

/-! ## Calls of `SignP2MR` -/

theorem mem_mergeEntry {entry : (Bytes × UInt8) × List Bytes} {scripts : LeafScripts}
    {leaf : Bytes × UInt8} (member : leaf ∈ scripts.map Prod.fst) :
    leaf ∈ (mergeEntry entry scripts).map Prod.fst := by
  induction scripts with
  | nil => cases member
  | cons first rest ih =>
      rw [List.map_cons, List.mem_cons] at member
      rw [mergeEntry]
      split_ifs
      · simpa using member
      · simp only [List.map_cons, List.mem_cons]
        exact .inr member
      · simp only [List.map_cons, List.mem_cons]
        exact member.imp_right ih

theorem mem_mergeScripts {scripts other : LeafScripts} {leaf : Bytes × UInt8}
    (member : leaf ∈ scripts.map Prod.fst) : leaf ∈ (mergeScripts scripts other).map Prod.fst := by
  unfold mergeScripts
  induction other generalizing scripts with
  | nil => exact member
  | cons entry other ih => exact ih (mem_mergeEntry member)

/-- The leaves of the spend data stay. -/
theorem mem_leaves_gather {data : P2MRSpendData} {leaf : Bytes × UInt8}
    (member : leaf ∈ data.leaves) (program : Uint256) :
    leaf ∈ (signing.gather data program).leaves := by
  unfold gather
  split
  · exact mem_mergeScripts member
  · exact member

/-- The data at the start of the loop over the leaves. -/
def gathered (signing : Signing) (program : Uint256) (sigdata : SignatureData) : SignatureData :=
  { sigdata with p2mrSpenddata := signing.gather sigdata.p2mrSpenddata program }

variable (signing) in
theorem sameKeys_gathered (program : Uint256) (sigdata : SignatureData) :
    signing.SameKeys sigdata (signing.gathered program sigdata) :=
  .of_eq rfl rfl rfl rfl

/-- The loop over the leaves. -/
def leafLoop (signing : Signing) (step : Step) (program : Uint256) (sigdata : SignatureData) :
    Except Halt (List Bytes × SignatureData) :=
  (signing.gathered program sigdata).p2mrSpenddata.scripts.foldlM
    (signing.signLeaf step .p2mrTapscript) ([], signing.gathered program sigdata)

theorem signP2MR_eq_loop (step : Step) (program : Uint256) (sigdata : SignatureData) :
    signing.signP2MR step program sigdata =
      signing.leafLoop step program sigdata >>=
        fun state => pure ⟨!state.1.isEmpty, state.1, state.2⟩ := rfl

/-! ## The leaves of a call -/

/-- A leaf of the list of scripts, with the entries around it. -/
theorem exists_split_of_leaves {data : P2MRSpendData} {before after : List (Bytes × UInt8)}
    {leaf : Bytes × UInt8} (split : data.leaves = before ++ leaf :: after) :
    ∃ first entry last, data.scripts = first ++ entry :: last ∧ entry.1 = leaf ∧
      first.map Prod.fst = before := by
  obtain ⟨first, rest, scripts, firstLeaves, restLeaves⟩ := List.map_eq_append_iff.mp split
  obtain ⟨entry, last, rfl, entryLeaf, -⟩ := List.map_eq_cons_iff.mp restLeaves
  exact ⟨first, entry, last, scripts, entryLeaf, firstLeaves⟩

/-- The state after some leaves. -/
def afterLeaves (signing : Signing) (sigdata : SignatureData) (state : TaprootState)
    (leaves : List (Bytes × UInt8)) : TaprootState :=
  leaves.foldl (signing.afterLeaf sigdata) state

theorem leftBehind_append {sigdata : SignatureData} {state : TaprootState}
    {before after : List (Bytes × UInt8)} :
    signing.LeftBehind sigdata state (before ++ after) ↔
      signing.LeftBehind sigdata state before ∧
        signing.LeftBehind sigdata (signing.afterLeaves sigdata state before) after := by
  induction before generalizing state with
  | nil => exact (and_iff_right trivial).symm
  | cons leaf before ih =>
      rw [List.cons_append, LeftBehind, LeftBehind, ih, and_assoc]
      rfl

theorem LeftBehind.entered {sigdata : SignatureData} {state : TaprootState}
    {leaves : List (Bytes × UInt8)} {leaf : Bytes × UInt8}
    (left : signing.LeftBehind sigdata state leaves) (member : leaf ∈ leaves) :
    signing.entered sigdata leaf = none := by
  induction leaves generalizing state with
  | nil => cases member
  | cons first leaves ih =>
      cases member with
      | head => exact left.1.entered
      | tail _ member => exact ih left.2 member

section Loop

variable {start : SignatureData}

/-- The loop gets past leaves that are left behind. -/
theorem loop_returns (step : Step) {scripts : LeafScripts} {state : List Bytes × SignatureData}
    (same : signing.SameKeys start state.2)
    (left : signing.LeftBehind start (taprootState state.2) (scripts.map Prod.fst)) :
    Returns (scripts.foldlM (signing.signLeaf (signing.signStepWith step) .p2mrTapscript) state)
      fun last => signing.SameLeaves state.2 last.2 ∧
        taprootState last.2 =
          signing.afterLeaves start (taprootState state.2) (scripts.map Prod.fst) := by
  induction scripts generalizing state with
  | nil => exact .ok ⟨.refl signing state.2, rfl⟩
  | cons entry scripts ih =>
      obtain ⟨passes, left⟩ := left
      rw [List.foldlM_cons]
      refine (signLeaf_passes step ((same.passes_iff _ _).mpr passes)).bind fun next follows => ?_
      have moved : taprootState next.2 =
          signing.afterLeaf start (taprootState state.2) entry.1 :=
        follows.taproot.trans (same.afterLeaf_eq _ _)
      refine (ih (same.trans follows.toSameKeys) (moved ▸ left)).imp fun last kept => ?_
      refine ⟨follows.toSameLeaves.trans kept.1, ?_⟩
      rw [kept.2, moved]
      rfl

/-- A loop that ends has left its leaves behind, if nested calls never return. -/
theorem leftBehind_of_loop {fuel : Nat} {scripts : LeafScripts}
    {state last : List Bytes × SignatureData} (same : signing.SameKeys start state.2)
    (never : ∀ entry ∈ scripts, ∀ program after result,
      signing.entered start entry.1 = some program → signing.SameLeaves state.2 after →
        ∀ inner, fuel = inner + 1 →
          signing.signP2MR (signing.signStep inner) program after ≠ .ok result)
    (looped : scripts.foldlM (signing.signLeaf (signing.signStep fuel) .p2mrTapscript) state =
      .ok last) :
    signing.LeftBehind start (taprootState state.2) (scripts.map Prod.fst) := by
  induction scripts generalizing state with
  | nil => trivial
  | cons entry scripts ih =>
      rw [List.foldlM_cons] at looped
      cases given : signing.signLeaf (signing.signStep fuel) .p2mrTapscript state entry with
      | error error =>
          rw [given] at looped
          cases looped
      | ok next =>
          rw [given] at looped
          obtain ⟨passes, follows⟩ := signLeaf_ok (fun program after result enters steady =>
            never entry List.mem_cons_self program after result
              ((same.entered_eq _).symm.trans enters) steady.toSameLeaves) given
          refine ⟨(same.passes_iff _ _).mp passes, ?_⟩
          rw [← same.afterLeaf_eq, ← follows.taproot]
          refine ih (same.trans follows.toSameKeys) (fun later member program after result enters
            kept => ?_) looped
          exact never later (List.mem_cons_of_mem _ member) program after result enters
            (follows.toSameLeaves.trans kept)

/-- A call that returns has left its leaves behind: a nested call has all leaves of the
call around it, and does not return. -/
theorem signP2MR_leftBehind (fuel : Nat) {program : Uint256} {sigdata : SignatureData}
    {result : SignResult} (same : signing.SameKeys start sigdata)
    (returned : signing.signP2MR (signing.signStep fuel) program sigdata = .ok result) :
    signing.LeftBehind start (taprootState sigdata)
      (signing.gather sigdata.p2mrSpenddata program).leaves := by
  induction fuel using Nat.strong_induction_on generalizing program sigdata result with
  | h fuel ih =>
      rw [signP2MR_eq_loop] at returned
      cases looped : signing.leafLoop (signing.signStep fuel) program sigdata with
      | error error =>
          rw [looped] at returned
          cases returned
      | ok last =>
          have gathered := same.trans (sameKeys_gathered signing program sigdata)
          refine @leftBehind_of_loop _ _ _ _ ([], signing.gathered program sigdata) _ gathered
            (fun entry member nested after result enters kept inner less given => ?_) looped
          have inLeaves : entry.1 ∈ after.p2mrSpenddata.leaves := by
            rw [kept.p2mrSpenddata]
            exact List.mem_map_of_mem member
          have left := ih inner (by omega) (gathered.trans kept.toSameKeys) given
          rw [left.entered (mem_leaves_gather inLeaves nested)] at enters
          cases enters

/-- A nested call does not return. -/
theorem signP2MR_ne_ok (fuel : Nat) {program nested : Uint256} {sigdata : SignatureData}
    {leaf : Bytes × UInt8} (same : signing.SameKeys start sigdata)
    (member : leaf ∈ sigdata.p2mrSpenddata.leaves)
    (enters : signing.entered start leaf = some program) (result : SignResult) :
    signing.signP2MR (signing.signStep fuel) nested sigdata ≠ .ok result := by
  intro returned
  have left := signP2MR_leftBehind fuel same returned
  rw [left.entered (mem_leaves_gather member nested)] at enters
  cases enters

/-- A call that leaves its leaves behind returns. -/
theorem signP2MR_returns (step : Step) {program : Uint256} {sigdata : SignatureData}
    (same : signing.SameKeys start sigdata)
    (left : signing.LeftBehind start (taprootState sigdata)
      (signing.gather sigdata.p2mrSpenddata program).leaves) :
    ∃ result, signing.signP2MR (signing.signStepWith step) program sigdata = .ok result := by
  have gathered := same.trans (sameKeys_gathered signing program sigdata)
  obtain ⟨last, looped, -⟩ :=
    @loop_returns _ _ step _ ([], signing.gathered program sigdata) gathered left
  have ends : signing.leafLoop (signing.signStepWith step) program sigdata = .ok last := looped
  rw [signP2MR_eq_loop, ends]
  exact ⟨_, rfl⟩

/-- A call ends in the error of the first leaf that is not left behind. -/
theorem signP2MR_eq_error (step : Step) {program : Uint256} {sigdata : SignatureData}
    {before after : List (Bytes × UInt8)} {leaf : Bytes × UInt8} {error : Halt}
    (same : signing.SameKeys start sigdata)
    (split : (signing.gather sigdata.p2mrSpenddata program).leaves = before ++ leaf :: after)
    (left : signing.LeftBehind start (taprootState sigdata) before)
    (fails : ∀ state entry, entry.1 = leaf →
      signing.SameLeaves (signing.gathered program sigdata) state.2 →
        taprootState state.2 = signing.afterLeaves start (taprootState sigdata) before →
          signing.signLeaf (signing.signStepWith step) .p2mrTapscript state entry =
            .error error) :
    signing.signP2MR (signing.signStepWith step) program sigdata = .error error := by
  obtain ⟨first, entry, last, scripts, isLeaf, rfl⟩ := exists_split_of_leaves split
  have gathered := same.trans (sameKeys_gathered signing program sigdata)
  have looped : signing.leafLoop (signing.signStepWith step) program sigdata = .error error := by
    refine foldlM_eq_error_of_returns scripts
      (@loop_returns _ _ step _ ([], signing.gathered program sigdata) gathered left)
      fun state kept => ?_
    exact fails state entry isLeaf kept.1 kept.2
  rw [signP2MR_eq_loop, looped]
  rfl

end Loop

/-! ## The leaves of nested calls -/

variable (signing) in
/-- The leaves that the nested calls of `SignP2MR` come to, with the signature data that
the first call starts with.  A call goes through its leaves as long as it leaves them
behind, and from a leaf that is again a P2MR output on through the leaves of that call. -/
inductive Reached (sigdata : SignatureData) :
    TaprootState → P2MRSpendData → Bytes × UInt8 → Prop
  | leaf {state : TaprootState} {data : P2MRSpendData} {before after : List (Bytes × UInt8)}
      {leaf : Bytes × UInt8} (split : data.leaves = before ++ leaf :: after)
      (left : signing.LeftBehind sigdata state before) : Reached sigdata state data leaf
  | nested {state : TaprootState} {data : P2MRSpendData} {before after : List (Bytes × UInt8)}
      {inner leaf : Bytes × UInt8} {program : Uint256}
      (split : data.leaves = before ++ inner :: after)
      (left : signing.LeftBehind sigdata state before)
      (enters : signing.entered sigdata inner = some program)
      (reached : Reached sigdata (signing.afterLeaves sigdata state before)
        (signing.gather data program) leaf) :
      Reached sigdata state data leaf

section Runs

variable {start : SignatureData}

/-- A call that comes to a leaf that fails ends in an assertion. -/
theorem signP2MR_aborts {state : TaprootState} {data : P2MRSpendData} {leaf : Bytes × UInt8}
    (reached : signing.Reached start state data leaf) (fails : signing.Fails start leaf) :
    ∃ fuel, ∀ sigdata program, signing.SameKeys start sigdata → taprootState sigdata = state →
      signing.gather sigdata.p2mrSpenddata program = data →
        signing.signP2MR (signing.signStep fuel) program sigdata = .error .assertion := by
  induction reached with
  | leaf split left =>
      refine ⟨1, fun sigdata program same isState gathers => ?_⟩
      refine signP2MR_eq_error _ same (gathers ▸ split) (isState ▸ left)
        fun state entry isLeaf kept _ => signLeaf_fails _ ?_
      have fromStart := (same.trans (sameKeys_gathered signing program sigdata)).trans
        kept.toSameKeys
      rwa [isLeaf, fromStart.fails_iff]
  | nested split left enters _ ih =>
      obtain ⟨fuel, aborts⟩ := ih fails
      refine ⟨fuel + 1, fun sigdata program same isState gathers => ?_⟩
      refine signP2MR_eq_error _ same (gathers ▸ split) (isState ▸ left)
        fun state entry isLeaf kept moved => ?_
      have fromStart := (same.trans (sameKeys_gathered signing program sigdata)).trans
        kept.toSameKeys
      obtain ⟨after, steady, signs⟩ := signLeaf_nested (signing.signStep fuel)
        (isLeaf ▸ (fromStart.entered_eq _).trans enters)
      rw [signs, aborts after _ (fromStart.trans steady.toSameKeys)]
      · rfl
      · rw [steady.taproot, moved, isState]
      · rw [steady.p2mrSpenddata, kept.p2mrSpenddata]
        exact congrArg (signing.gather · _) gathers

/-- The loop of a call that has left some leaves behind. -/
structure Loops (signing : Signing) (start sigdata : SignatureData) (program : Uint256)
    (scripts : LeafScripts) (state : List Bytes × SignatureData) (done : List (Bytes × UInt8)) :
    Prop where
  split : (signing.gather sigdata.p2mrSpenddata program).leaves =
    done ++ scripts.map Prod.fst
  left : signing.LeftBehind start (taprootState sigdata) done
  kept : signing.SameLeaves (signing.gathered program sigdata) state.2
  moved : taprootState state.2 = signing.afterLeaves start (taprootState sigdata) done

section Rounds

variable {sigdata : SignatureData} {program : Uint256} {entry : (Bytes × UInt8) × List Bytes}
  {rest : LeafScripts} {state : List Bytes × SignatureData} {done : List (Bytes × UInt8)}
  (loops : signing.Loops start sigdata program (entry :: rest) state done)
  (same : signing.SameKeys start sigdata)

include loops in
theorem Loops.mem_leaves {after : SignatureData} (steady : signing.Steady state.2 after) :
    entry.1 ∈ after.p2mrSpenddata.leaves := by
  have sameLeaves : after.p2mrSpenddata.leaves =
      (signing.gather sigdata.p2mrSpenddata program).leaves := by
    rw [steady.p2mrSpenddata, loops.kept.p2mrSpenddata]
    rfl
  rw [sameLeaves, loops.split]
  exact List.mem_append_right _ List.mem_cons_self

include loops same

theorem Loops.sameKeys : signing.SameKeys start state.2 :=
  (same.trans (sameKeys_gathered signing program sigdata)).trans loops.kept.toSameKeys

theorem Loops.next {fuel : Nat} {next : List Bytes × SignatureData}
    (given : signing.signLeaf (signing.signStep fuel) .p2mrTapscript state entry = .ok next) :
    signing.Loops start sigdata program rest next (done ++ [entry.1]) := by
  have keys := loops.sameKeys same
  obtain ⟨passes, follows⟩ := signLeaf_ok (fun nested after result enters steady inner _ =>
    signP2MR_ne_ok inner (keys.trans steady.toSameKeys) (loops.mem_leaves steady)
      ((keys.entered_eq _).symm.trans enters) result) given
  rw [keys.passes_iff, loops.moved] at passes
  refine ⟨by simp [loops.split], leftBehind_append.mpr ⟨loops.left, passes, trivial⟩,
    loops.kept.trans follows.toSameLeaves, ?_⟩
  rw [follows.taproot, keys.afterLeaf_eq, loops.moved, afterLeaves, afterLeaves,
    List.foldl_append]
  rfl

end Rounds

theorem signP2MR_ne_error {fuel : Nat} {sigdata : SignatureData} {program : Uint256}
    {error : Halt} (same : signing.SameKeys start sigdata)
    (safe : ∀ entry rest state done,
      signing.Loops start sigdata program (entry :: rest) state done →
        signing.signLeaf (signing.signStep fuel) .p2mrTapscript state entry ≠ .error error) :
    signing.signP2MR (signing.signStep fuel) program sigdata ≠ .error error := by
  refine bind_ne_error (foldlM_ne_error (fun rest state =>
    ∃ done, signing.Loops start sigdata program rest state done) ?_ ?_ ?_)
      fun _ => by rintro ⟨⟩
  · exact ⟨[], rfl, trivial, .refl signing _, rfl⟩
  · rintro entry rest state next ⟨done, loops⟩ given
    exact ⟨_, loops.next same given⟩
  · rintro entry rest state ⟨done, loops⟩
    exact safe entry rest state done loops

/-- A call that comes to no leaf that fails never ends in an assertion. -/
theorem signP2MR_ne_assertion (fuel : Nat) {sigdata : SignatureData} {program : Uint256}
    (same : signing.SameKeys start sigdata)
    (safe : ∀ leaf, signing.Reached start (taprootState sigdata)
      (signing.gather sigdata.p2mrSpenddata program) leaf → ¬ signing.Fails start leaf) :
    signing.signP2MR (signing.signStep fuel) program sigdata ≠ .error .assertion := by
  induction fuel generalizing sigdata program with
  | zero =>
      refine signP2MR_ne_error same fun entry rest state done _ => ?_
      obtain ⟨-, next, returned, -⟩ | stopped | stopped := @signLeaf_zero signing state entry
      · rw [returned]
        rintro ⟨⟩
      · rw [stopped]
        rintro ⟨⟩
      · rw [stopped]
        rintro ⟨⟩
  | succ fuel ih =>
      refine signP2MR_ne_error same fun entry rest state done loops => ?_
      have keys := loops.sameKeys same
      have here : (signing.gather sigdata.p2mrSpenddata program).leaves =
          done ++ entry.1 :: rest.map Prod.fst := loops.split
      rw [signStep]
      cases enters : signing.entered start entry.1 with
      | some nested =>
          obtain ⟨after, steady, signs⟩ := signLeaf_nested (signing.signStep fuel)
            ((keys.entered_eq _).trans enters)
          rw [signs]
          refine bind_ne_error (ih (keys.trans steady.toSameKeys) fun leaf reached => ?_)
            fun _ => by rintro ⟨⟩
          rw [steady.taproot, loops.moved, steady.p2mrSpenddata, loops.kept.p2mrSpenddata]
            at reached
          exact safe leaf (.nested here loops.left enters reached)
      | none =>
          have fails := safe entry.1 (.leaf here loops.left)
          by_cases throws : signing.Throws state.2 (taprootState state.2) entry.1
          · rw [signLeaf_throws _ throws]
            rintro ⟨⟩
          · obtain ⟨next, returned, -⟩ := signLeaf_passes (signing.signStep fuel)
              ⟨(keys.entered_eq _).trans enters, mt (keys.fails_iff _).mp fails, throws⟩
            rw [returned]
            rintro ⟨⟩

end Runs

/-! ## `ProduceSignature` on a P2MR output -/

theorem signStep_p2mrScript (fuel : Nat) (program : Uint256) (version : SigVersion)
    (sigdata : SignatureData) (leafHash : Option Uint256) :
    signing.signStep (fuel + 1) (p2mrScript program) version sigdata leafHash =
      signing.signP2MR (signing.signStep fuel) program sigdata := by
  refine signStepWith_nested _ ?_ version sigdata leafHash
  rw [nestedProgram, solver_p2mrScript]

/-- What comes after `SignP2MR` always returns. -/
theorem produceSignature_p2mrScript {program : Uint256} {sigdata : SignatureData}
    (incomplete : sigdata.complete = false) :
    ∃ finish : SignResult → Bool × SignatureData, ∀ fuel,
      signing.produceSignature (fuel + 1) (p2mrScript program) sigdata =
        (signing.signP2MR (signing.signStep fuel) program sigdata).map finish := by
  refine ⟨fun signed => signing.finishSignature (p2mrScript program)
    { solved := signed.solved
      result := []
      whichType := .witnessV2P2mr program
      subscript := none
      sigdata := { signed.sigdata with
        scriptWitness := if signed.solved then signed.result else signed.sigdata.scriptWitness
        witness := true } }, fun fuel => ?_⟩
  rw [produceSignature, if_neg (by simp [incomplete]), signOuter, signStep_p2mrScript,
    solver_p2mrScript]
  cases signing.signP2MR (signing.signStep fuel) program sigdata with
  | error error => rfl
  | ok signed =>
      obtain ⟨solved, result, after⟩ := signed
      cases solved <;> rfl

theorem produceSignature_ok_iff {program : Uint256} {sigdata : SignatureData}
    (incomplete : sigdata.complete = false) (fuel : Nat) :
    (∃ result, signing.produceSignature (fuel + 1) (p2mrScript program) sigdata = .ok result) ↔
      ∃ result, signing.signP2MR (signing.signStep fuel) program sigdata = .ok result := by
  obtain ⟨finish, produces⟩ := produceSignature_p2mrScript incomplete
  rw [produces]
  cases signing.signP2MR (signing.signStep fuel) program sigdata <;> simp [Except.map]

theorem produceSignature_error_iff {program : Uint256} {sigdata : SignatureData}
    (incomplete : sigdata.complete = false) (fuel : Nat) (error : Halt) :
    signing.produceSignature (fuel + 1) (p2mrScript program) sigdata = .error error ↔
      signing.signP2MR (signing.signStep fuel) program sigdata = .error error := by
  obtain ⟨finish, produces⟩ := produceSignature_p2mrScript incomplete
  rw [produces]
  cases signing.signP2MR (signing.signStep fuel) program sigdata <;> simp [Except.map]

theorem produceSignature_zero {script : Bytes} {sigdata : SignatureData}
    (incomplete : sigdata.complete = false) :
    signing.produceSignature 0 script sigdata = .error .outOfFuel := by
  rw [produceSignature, if_neg (by simp [incomplete])]
  rfl

theorem produceSignature_complete (fuel : Nat) (script : Bytes) {sigdata : SignatureData}
    (complete : sigdata.complete = true) :
    signing.produceSignature fuel script sigdata = .ok (true, sigdata) := by
  rw [produceSignature, if_pos complete]

/-- `ProduceSignature` on a P2MR output gives a result exactly when the data is complete,
or the leaves that are known for the output pass: none of them is left to the solver as a
P2MR output or as a template without its ECDSA signatures, and Miniscript throws on none,
nor on a leaf of the tree of a Taproot output that a leaf is. -/
theorem produceSignature_returns_iff (signing : Signing) (program : Uint256)
    (sigdata : SignatureData) :
    (∃ fuel result, signing.produceSignature fuel (p2mrScript program) sigdata = .ok result) ↔
      sigdata.complete = true ∨
        signing.LeftBehind sigdata (taprootState sigdata)
          (signing.gather sigdata.p2mrSpenddata program).leaves := by
  have same : signing.SameKeys sigdata sigdata := .of_eq rfl rfl rfl rfl
  cases complete : sigdata.complete with
  | true => exact ⟨fun _ => .inl rfl, fun _ => ⟨0, _, produceSignature_complete 0 _ complete⟩⟩
  | false =>
      constructor
      · rintro ⟨fuel, result, returned⟩
        refine .inr ?_
        cases fuel with
        | zero =>
            rw [produceSignature_zero complete] at returned
            cases returned
        | succ fuel =>
            obtain ⟨signed, returned⟩ :=
              (produceSignature_ok_iff complete fuel).mp ⟨result, returned⟩
            exact signP2MR_leftBehind fuel same returned
      · rintro (known | left)
        · cases known
        · exact ⟨2, (produceSignature_ok_iff complete 1).mpr (signP2MR_returns _ same left)⟩

/-- `ProduceSignature` on a P2MR output never runs into an assertion exactly when the data
is complete, or none of the leaves that its nested calls come to is left to the solver as
a template without its ECDSA signatures. -/
theorem produceSignature_neverAsserts_iff (signing : Signing) (program : Uint256)
    (sigdata : SignatureData) :
    (∀ fuel, signing.produceSignature fuel (p2mrScript program) sigdata ≠ .error .assertion) ↔
      sigdata.complete = true ∨
        ∀ leaf, signing.Reached sigdata (taprootState sigdata)
            (signing.gather sigdata.p2mrSpenddata program) leaf →
          ¬ signing.Fails sigdata leaf := by
  have same : signing.SameKeys sigdata sigdata := .of_eq rfl rfl rfl rfl
  cases complete : sigdata.complete with
  | true =>
      refine ⟨fun _ => .inl rfl, fun _ fuel => ?_⟩
      rw [produceSignature_complete fuel _ complete]
      rintro ⟨⟩
  | false =>
      constructor
      · refine fun safe => .inr fun leaf reached fails => ?_
        obtain ⟨fuel, aborts⟩ := signP2MR_aborts reached fails
        exact safe (fuel + 1)
          ((produceSignature_error_iff complete fuel _).mpr (aborts sigdata program same rfl rfl))
      · rintro (known | safe)
        · cases known
        · intro fuel
          cases fuel with
          | zero =>
              rw [produceSignature_zero complete]
              rintro ⟨⟩
          | succ fuel =>
              rw [Ne, produceSignature_error_iff complete]
              exact signP2MR_ne_assertion fuel same safe

/-! ## Leaves that fail -/

/-- Miniscript on the leaves below: it throws on a key of 33 bytes with `OP_CHECKSIG` and
recognises none of the others. -/
def unknowingMiniscript : Miniscript Uint256 where
  satisfy script _ _ :=
    if script.head? = some 33 ∧ script.length = 35 ∧ script.getLast? = some opChecksig then none
    else some ⟨false, [], [], []⟩
  deferred_congr _ _ _ _ _ := rfl

/-- A signer without keys. -/
def keylessSigning : Signing where
  hashes := paddingHashes
  hash160 := fun bytes => (bytes ++ List.replicate 20 0).take 20
  ripemd160 := fun bytes => (bytes ++ List.replicate 20 0).take 20
  provider :=
    { getCScript := fun _ => none
      getPubKey := fun _ => none
      getKey := fun _ => none
      getKeyOrigin := fun _ => none
      getTaprootSpendData := fun _ => none
      getP2MRSpendData := fun _ => none
      getDilithiumPubKey := fun _ => none
      getDilithiumKeyByHash := fun _ => none
      getDilithiumKeyOrigin := fun _ => none }
  creator :=
    { nHashType := 1
      amount := 0
      txdataReady := true
      signatureHash := fun _ _ _ => .null
      signatureHashSchnorr := fun _ _ => some .null }
  wshMiniscript := ⟨fun _ _ _ => some ⟨false, [], [], []⟩, fun _ _ _ _ _ => rfl⟩
  tapMiniscript := unknowingMiniscript
  verifyScript := fun _ _ _ => false

/-- Signature data that holds one leaf and its control block. -/
def singleLeafData (script : Bytes) : SignatureData where
  complete := false
  witness := false
  scriptSig := []
  redeemScript := []
  witnessScript := []
  scriptWitness := []
  trSpenddata := ⟨.null, .null, []⟩
  p2mrSpenddata := ⟨.null, [((script, taprootLeafTapscript), [[taprootLeafTapscript]])]⟩
  signatures := fun _ => none
  miscPubkeys := fun _ => none
  dilithiumSignatures := fun _ => none
  p2mrDilithiumScriptSigs := fun _ => none
  dilithiumMiscPubkeys := fun _ => none
  taprootKeyPathSig := []
  taprootScriptSigs := fun _ => none
  taprootMiscPubkeys := fun _ => none
  tapPubkeys := fun _ => none
  missingPubkeys := []
  missingSigs := []
  missingDilithiumPubkeys := []
  missingDilithiumSigs := []
  missingRedeemScript := []
  missingWitnessScript := []

/-- The script of an uncompressed key and `OP_CHECKSIG`. -/
def uncompressedLeaf : Bytes := 65 :: 4 :: List.replicate 64 1 ++ [opChecksig]

/-- Signing for a tree with that leaf runs into the assertion of `CreateSig`. -/
theorem uncompressedLeaf_asserts :
    keylessSigning.produceSignature 2 (p2mrScript .null) (singleLeafData uncompressedLeaf) =
      .error .assertion := by
  rfl

-- A compressed key comes to Miniscript, which throws.
example :
    keylessSigning.produceSignature 2 (p2mrScript .null)
      (singleLeafData (33 :: 2 :: List.replicate 32 1 ++ [opChecksig])) =
        .error .nonFatalCheck := by
  rfl

/-- Signing for a tree with a leaf that is a P2MR output script never gives a result. -/
theorem nestedLeaf_never_returns :
    ¬ ∃ fuel result, keylessSigning.produceSignature fuel (p2mrScript .null)
      (singleLeafData (p2mrScript .null)) = .ok result := by
  have enters : keylessSigning.entered (singleLeafData (p2mrScript .null))
      (p2mrScript .null, taprootLeafTapscript) = some .null := by
    rw [entered, if_pos ⟨rfl, rfl⟩, nestedProgram, solver_p2mrScript]
  rintro ⟨fuel, returned⟩
  cases fuel with
  | zero =>
      rw [produceSignature_zero rfl] at returned
      simp at returned
  | succ fuel =>
      obtain ⟨result, signed⟩ := (produceSignature_ok_iff rfl fuel).mp returned
      exact signP2MR_ne_ok fuel (.of_eq rfl rfl rfl rfl) List.mem_cons_self enters result signed

end QuantyCoin.Signing
