import FuryNode.Contracts.BridgeBank

/-!
Whether a locked token is found again by its symbol. The table of locked tokens is written under
the symbol as the token spells it, the table of spellings under its lower-case form. A token
keeps both entries as long as no other token with a symbol of the same lower-case form comes
in, and none that is spelled like ether.
-/
namespace FuryNode
open StatefulProgram StatefulProgram.Prog BridgeBank
variable {H τ : Type} {env : TokenWorld H τ}

theorem lowerByte_idempotent (b : UInt8) : lowerByte (lowerByte b) = lowerByte b := by
  unfold lowerByte
  split
  next upper =>
    rw [if_neg]
    rintro ⟨_, high⟩
    rw [UInt8.le_iff_toNat_le, UInt8.le_iff_toNat_le] at upper
    rw [UInt8.le_iff_toNat_le, UInt8.toNat_add] at high
    simp at upper high
    omega
  next => rfl

theorem toLower_idempotent (symbol : Symbol) : toLower (toLower symbol) = toLower symbol := by
  rw [toLower, toLower, List.map_map]
  exact List.map_congr_left (fun b _ => lowerByte_idempotent b)

theorem toLower_eth : toLower CosmosBridge.ethSymbol = CosmosBridge.ethSymbol := by decide

def Tracked (env : TokenWorld H τ) (s : BridgeBankState τ) (token : Address) (symbol : Symbol) : Prop :=
  env.symbol token = some symbol ∧
    (s.ethereumTokenWhiteList token = true ∨ s.lockedTokenList symbol = token)

/-- A token whose symbol is no other spelling of ether or of another tracked token's symbol. -/
def TokenApart (env : TokenWorld H τ) (s : BridgeBankState τ) (token : Address) : Prop :=
  ∀ symbol, env.symbol token = some symbol → toLower symbol ≠ CosmosBridge.ethSymbol ∧
    ∀ other spelled, Tracked env s other spelled → toLower spelled = toLower symbol → other = token

structure Resolvable (env : TokenWorld H τ) (s : BridgeBankState τ) : Prop where
  ether : s.lockedTokenList CosmosBridge.ethSymbol = 0
  ether_spelled : s.lowerToUpperTokens CosmosBridge.ethSymbol = CosmosBridge.ethSymbol
  lower_keys : ∀ key, s.lowerToUpperTokens key ≠ [] → toLower key = key
  spelled : ∀ token symbol, Tracked env s token symbol →
    s.lowerToUpperTokens (toLower symbol) = symbol ∧ toLower symbol ≠ CosmosBridge.ethSymbol
  distinct : ∀ token symbol other spelled, Tracked env s token symbol → Tracked env s other spelled →
    toLower spelled = toLower symbol → other = token

theorem resolvable_initialized (s : BridgeBankState τ) : Resolvable env (initializedTables s) := by
  -- only ether is on the list, and it is no contract
  have untracked : ∀ token symbol, ¬Tracked env (initializedTables s) token symbol := by
    rintro token symbol ⟨named, listed | locked⟩
    · rw [of_decide_eq_true listed, env.symbol_zero] at named
      cases named
    · rw [← (show (0 : Address) = token from locked), env.symbol_zero] at named
      cases named
  refine ⟨rfl, rfl, ?_, fun t x tracked => absurd tracked (untracked t x),
    fun t x _ _ tracked => absurd tracked (untracked t x)⟩
  intro key written
  by_cases eth : key = CosmosBridge.ethSymbol
  · rw [eth]
    exact toLower_eth
  · by_cases efury : key = efurySymbol
    · rw [efury]
      decide
    · exact absurd (by simp [initializedTables, eth, efury]) written

/-- The changes of the tables when a token is put on the list or taken off it. -/
def registered (s : BridgeBankState τ) (token : Address) (inList : Bool) (symbol : Symbol) :
    BridgeBankState τ :=
  { s with
    ethereumTokenWhiteList := Function.update s.ethereumTokenWhiteList token inList
    lowerToUpperTokens := Function.update s.lowerToUpperTokens (toLower symbol) symbol }

theorem tracked_registered (s : BridgeBankState τ) (token : Address) (inList : Bool) (symbol : Symbol)
    (other : Address) (spelled : Symbol) (tracked : Tracked env (registered s token inList symbol) other spelled) :
    other = token ∨ Tracked env s other spelled := by
  by_cases same : other = token
  · exact .inl same
  · right
    refine ⟨tracked.1, ?_⟩
    rcases tracked.2 with listed | locked
    · left
      simpa [registered, Function.update_of_ne same] using listed
    · exact .inr locked

theorem registered_resolvable (s : BridgeBankState τ) (token : Address) (inList : Bool) (symbol : Symbol)
    (named : env.symbol token = some symbol) (apart : TokenApart env s token) (resolvable : Resolvable env s) :
    Resolvable env (registered s token inList symbol) := by
  obtain ⟨noEther, alone⟩ := apart symbol named
  have own : ∀ spelled, Tracked env (registered s token inList symbol) token spelled → spelled = symbol := by
    intro spelled tracked
    exact Option.some.inj (tracked.1.symm.trans named)
  -- another tracked token has another lower-case symbol
  have differs : ∀ other spelled, other ≠ token → Tracked env s other spelled →
      toLower spelled ≠ toLower symbol := by
    intro other spelled different tracked same
    exact different (alone other spelled tracked same)
  constructor
  · exact resolvable.ether
  · show Function.update s.lowerToUpperTokens (toLower symbol) symbol CosmosBridge.ethSymbol = _
    rw [Function.update_of_ne noEther.symm]
    exact resolvable.ether_spelled
  · intro key written
    by_cases same : key = toLower symbol
    · rw [same, toLower_idempotent]
    · apply resolvable.lower_keys key
      simpa [registered, Function.update_of_ne same] using written
  · intro other spelled tracked
    show Function.update s.lowerToUpperTokens (toLower symbol) symbol (toLower spelled) = spelled ∧ _
    by_cases same : other = token
    · subst same
      rw [own spelled tracked, Function.update_self]
      exact ⟨rfl, noEther⟩
    · have before := (tracked_registered s token inList symbol other spelled tracked).resolve_left same
      rw [Function.update_of_ne (differs other spelled same before)]
      exact resolvable.spelled other spelled before
  · intro first x second y trackedFirst trackedSecond same
    rcases tracked_registered s token inList symbol first x trackedFirst with rfl | before <;>
      rcases tracked_registered s _ inList symbol second y trackedSecond with rfl | later
    · rfl
    · rw [own x trackedFirst] at same
      exact alone second y later same
    · rw [own y trackedSecond] at same
      exact (alone first x before same.symm).symm
    · exact resolvable.distinct first x second y before later same

variable {s t : BridgeBankState τ} {token : Address} {symbol : Symbol}

theorem locked_resolvable {nonce : ℕ} {world : τ}
    (own : token = 0 ∧ symbol = CosmosBridge.ethSymbol ∨ Tracked env s token symbol)
    (resolvable : Resolvable env s) :
    Resolvable env { s with
      world := world, lockBurnNonce := nonce
      lockedTokenList := Function.update s.lockedTokenList symbol token } := by
  have before : ∀ other spelled, Tracked env { s with
      world := world, lockBurnNonce := nonce
      lockedTokenList := Function.update s.lockedTokenList symbol token } other spelled →
      Tracked env s other spelled := by
    rintro other spelled ⟨named, listed | locked⟩
    · exact ⟨named, .inl listed⟩
    · by_cases same : spelled = symbol
      · subst same
        have entry : other = token := by
          simpa using locked.symm
        subst entry
        rcases own with ⟨rfl, _⟩ | tracked
        · rw [env.symbol_zero] at named
          cases named
        · exact tracked
      · exact ⟨named, .inr (by simpa [Function.update_of_ne same] using locked)⟩
  refine ⟨?_, resolvable.ether_spelled, resolvable.lower_keys,
    fun t x tracked => resolvable.spelled t x (before t x tracked),
    fun t x u y first second => resolvable.distinct t x u y (before t x first) (before u y second)⟩
  show Function.update s.lockedTokenList symbol token CosmosBridge.ethSymbol = 0
  rcases own with ⟨rfl, rfl⟩ | tracked
  · exact Function.update_self ..
  · rw [Function.update_of_ne]
    · exact resolvable.ether
    · rintro rfl
      exact (resolvable.spelled token _ tracked).2 toLower_eth

/-! The calls. -/

theorem symbolOf_succeeds :
    (symbolOf env token).run s = (.ok symbol, t) ↔ env.symbol token = some symbol ∧ s = t := by
  rw [symbolOf, ofExcept_succeeds]
  cases env.symbol token <;> simp

theorem whitelistToken_succeeds (token : Address) (s t : BridgeBankState τ) (u : Unit)
    (run : (whitelistToken env token).run s = (.ok u, t)) :
    ∃ symbol, env.symbol token = some symbol ∧ t = registered s token true symbol := by
  simp only [whitelistToken, setTokenInEthWhiteList, modify_then] at run
  obtain ⟨symbol, r, found, last⟩ := bind_ok run
  obtain ⟨named, rfl⟩ := symbolOf_succeeds.mp found
  obtain rfl := modify_succeeds.mp last
  exact ⟨symbol, named, rfl⟩

theorem updateEthWhiteList_succeeds {sender : Caller} {inList : Bool} {u : Unit}
    (run : (updateEthWhiteList env sender token inList).run s = (.ok u, t)) :
    ∃ symbol, env.symbol token = some symbol ∧ t = registered s token inList symbol := by
  obtain ⟨_, r, operator, tail⟩ := bind_ok run
  simp only [BridgeBank.onlyOperator, read_then, require_succeeds] at operator
  obtain ⟨_, rfl⟩ := operator
  obtain ⟨symbol, q, found, later⟩ := bind_ok tail
  obtain ⟨named, rfl⟩ := symbolOf_succeeds.mp found
  rw [read_then] at later
  refine ⟨symbol, named, ?_⟩
  split at later
  · simp only [require_then, registerSymbol, modify_then, setTokenInEthWhiteList, modify_succeeds] at later
    exact later.2.symm
  · simp only [require_then, registerSymbol, modify_then, setTokenInEthWhiteList, modify_succeeds] at later
    exact later.2.symm

theorem callOut_succeeds {call : τ → Except String τ} {u : Unit}
    (run : (callOut call).run s = (.ok u, t)) : ∃ world, t = { s with world := world } := by
  simp only [callOut, read_then, ofExcept_then, modify_succeeds] at run
  obtain ⟨world, _, rfl⟩ := run
  exact ⟨world, rfl⟩

theorem receiveFunds_succeeds (sender : Caller) (value : ℕ) (token : Address) (amount : ℕ)
    (run : (receiveFunds env sender value token amount).run s = (.ok symbol, t)) :
    (token = 0 ∧ symbol = CosmosBridge.ethSymbol ∨ env.symbol token = some symbol) ∧
      ∃ world, t = { s with world := world } := by
  unfold receiveFunds at run
  split at run
  · simp only [require_then, pure_succeeds] at run
    obtain ⟨zero, _, rfl, rfl⟩ := run
    exact ⟨.inl ⟨zero, rfl⟩, s.world, rfl⟩
  · obtain ⟨_, r, called, found⟩ := bind_ok run
    obtain ⟨named, rfl⟩ := symbolOf_succeeds.mp found
    exact ⟨.inr named, callOut_succeeds called⟩

theorem lock_succeeds {sender : Caller} {value : ℕ} {recipient : List UInt8} {amount : ℕ}
    (run : (BridgeBank.lock env sender value recipient token amount).run s = (.ok symbol, t)) :
    (token = 0 ∧ symbol = CosmosBridge.ethSymbol ∨ Tracked env s token symbol) ∧
      ∃ nonce world, t = { s with
        world := world, lockBurnNonce := nonce
        lockedTokenList := Function.update s.lockedTokenList symbol token } := by
  simp only [BridgeBank.lock, read_then, require_then] at run
  obtain ⟨listed, tail⟩ := run
  obtain ⟨_, r₁, address, tail⟩ := bind_ok tail
  obtain ⟨_, r₂, blocked, tail⟩ := bind_ok tail
  obtain ⟨_, r₃, running, tail⟩ := bind_ok tail
  simp only [validFuryAddress, onlyNotBlocklisted, whenNotPaused, read_then, require_then,
    require_succeeds] at address blocked running
  obtain ⟨_, _, rfl⟩ := address
  obtain ⟨_, rfl⟩ := blocked
  obtain ⟨_, rfl⟩ := running
  obtain ⟨received, r₄, funds, tail⟩ := bind_ok tail
  obtain ⟨_, r₅, entered, last⟩ := bind_ok tail
  obtain ⟨rfl, rfl⟩ := pure_succeeds.mp last
  obtain ⟨own, world, rfl⟩ := receiveFunds_succeeds sender value token amount funds
  simp only [lockFunds, read_then, ofExcept_then, modify_succeeds] at entered
  obtain ⟨nonce, _, rfl⟩ := entered
  refine ⟨?_, nonce, world, rfl⟩
  rcases own with ether | named
  · exact .inl ether
  · exact .inr ⟨named, .inl listed⟩

def BridgeBankState.tables (s : BridgeBankState τ) :
    (Address → Bool) × (Symbol → Address) × (Symbol → Symbol) :=
  (s.ethereumTokenWhiteList, s.lockedTokenList, s.lowerToUpperTokens)

theorem callOut_scope {call : τ → Except String τ} : Preserves BridgeBankState.tables (callOut call) :=
  preserves_read_then (fun _ => preserves_bind preserves_ofExcept
    (fun _ => preserves_modify (fun _ => rfl)))

theorem resolvable_tables (s t : BridgeBankState τ) (same : t.tables = s.tables)
    (resolvable : Resolvable env s) : Resolvable env t := by
  simp only [BridgeBankState.tables, Prod.mk.injEq] at same
  obtain ⟨list, locked, spellings⟩ := same
  have tracked : ∀ token symbol, Tracked env t token symbol → Tracked env s token symbol := by
    intro token symbol now
    rwa [Tracked, list, locked] at now
  constructor
  · rw [locked]
    exact resolvable.ether
  · rw [spellings]
    exact resolvable.ether_spelled
  · rw [spellings]
    exact resolvable.lower_keys
  · rw [spellings]
    exact fun token symbol now => resolvable.spelled token symbol (tracked token symbol now)
  · exact fun token symbol other spelled first second =>
      resolvable.distinct token symbol other spelled (tracked _ _ first) (tracked _ _ second)

variable [DecidableEq H]

theorem unlock_scope (sender : Caller) (recipient : Address) (symbol : Symbol) (amount : ℕ) :
    Preserves BridgeBankState.tables (BridgeBank.unlock env sender recipient symbol amount) := by
  refine preserves_bind (preserves_read_then (fun _ => preserves_require)) (fun _ => ?_)
  refine preserves_bind (preserves_read_then (fun _ => preserves_require)) (fun _ => ?_)
  refine preserves_bind (preserves_read_then (fun _ => preserves_require)) (fun _ => ?_)
  refine preserves_read_then (fun s => ?_)
  exact preserves_ite callOut_scope callOut_scope

/-- The tokens that a call puts on the list or takes off it are apart from the others and from
    each other. -/
def BankCall.Separate (env : TokenWorld H τ) (s : BridgeBankState τ) : BankCall τ → Prop
  | .updateEthWhiteList _ token _ => TokenApart env s token
  | .bulkWhitelistUpdateLimits _ tokens => (∀ token ∈ tokens, TokenApart env s token) ∧
      ∀ token ∈ tokens, ∀ other ∈ tokens, ∀ symbol spelled, env.symbol token = some symbol →
        env.symbol other = some spelled → toLower spelled = toLower symbol → other = token
  | _ => True

omit [DecidableEq H] in
theorem bulk_resolvable (tokens : List Address) (s t : BridgeBankState τ) (u : Unit)
    (apart : ∀ token ∈ tokens, TokenApart env s token)
    (each : ∀ token ∈ tokens, ∀ other ∈ tokens, ∀ symbol spelled, env.symbol token = some symbol →
      env.symbol other = some spelled → toLower spelled = toLower symbol → other = token)
    (resolvable : Resolvable env s) (run : (forEach (whitelistToken env) tokens).run s = (.ok u, t)) :
    Resolvable env t ∧ t.lockedTokenList = s.lockedTokenList := by
  induction tokens generalizing s with
  | nil =>
    obtain ⟨_, rfl⟩ := pure_succeeds.mp run
    exact ⟨resolvable, rfl⟩
  | cons token rest ih =>
    obtain ⟨_, r, first, later⟩ := bind_ok run
    obtain ⟨symbol, named, rfl⟩ := whitelistToken_succeeds token s r _ first
    refine ih (registered s token true symbol) ?_ ?_ ?_ later
    · -- the tokens to come are apart from this one as well
      intro next member spelled nextNamed
      obtain ⟨noEther, alone⟩ := apart next (by simp [member]) spelled nextNamed
      refine ⟨noEther, fun other x tracked same => ?_⟩
      rcases tracked_registered s token true symbol other x tracked with rfl | before
      · exact each next (by simp [member]) other (by simp) spelled x nextNamed tracked.1 same
      · exact alone other x before same
    · exact fun a inA b inB => each a (by simp [inA]) b (by simp [inB])
    · exact registered_resolvable s token true symbol named (apart token (by simp)) resolvable

theorem step_resolvable {call : BankCall τ} (separate : call.Separate env s)
    (resolvable : Resolvable env s) : Resolvable env (call.step env s) := by
  cases call with
  | updateEthWhiteList sender token inList =>
    apply transact_preserves (Resolvable env) (updateEthWhiteList env sender token inList) s _ resolvable
    intro u t run
    obtain ⟨symbol, named, rfl⟩ := updateEthWhiteList_succeeds run
    exact registered_resolvable s token inList symbol named separate resolvable
  | bulkWhitelistUpdateLimits sender tokens =>
    apply transact_preserves (Resolvable env) (bulkWhitelistUpdateLimits env sender tokens) s _ resolvable
    intro u t run
    obtain ⟨_, r, operator, loop⟩ := bind_ok run
    simp only [BridgeBank.onlyOperator, read_then, require_succeeds] at operator
    obtain ⟨_, rfl⟩ := operator
    exact (bulk_resolvable tokens s t u separate.1 separate.2 resolvable loop).1
  | lock sender value recipient token amount =>
    apply transact_preserves (Resolvable env) (BridgeBank.lock env sender value recipient token amount) s _ resolvable
    intro symbol t run
    obtain ⟨own, nonce, world, rfl⟩ := lock_succeeds run
    exact locked_resolvable own resolvable
  | unlock sender recipient symbol amount =>
    exact resolvable_tables s _ (preserves_transact (unlock_scope sender recipient symbol amount) s) resolvable
  | elsewhere => exact resolvable_tables s _ rfl resolvable

structure Entered (env : TokenWorld H τ) (s : BridgeBankState τ) (token : Address) (symbol : Symbol) : Prop where
  own : token = 0 ∧ symbol = CosmosBridge.ethSymbol ∨ env.symbol token = some symbol
  entry : s.lockedTokenList symbol = token

omit [DecidableEq H] in
theorem entered_unique {other : Address} (resolvable : Resolvable env s)
    (entered : Entered env s token symbol)
    (own : other = 0 ∧ symbol = CosmosBridge.ethSymbol ∨ Tracked env s other symbol) :
    other = token := by
  rcases entered.own with ⟨rfl, rfl⟩ | named
  · rcases own with ⟨rfl, _⟩ | tracked
    · rfl
    · exact absurd toLower_eth (resolvable.spelled other _ tracked).2
  · have tracked : Tracked env s token symbol := ⟨named, .inr entered.entry⟩
    rcases own with ⟨_, rfl⟩ | second
    · exact absurd toLower_eth (resolvable.spelled token _ tracked).2
    · exact resolvable.distinct token symbol other symbol tracked second rfl

theorem step_entered {call : BankCall τ} (separate : call.Separate env s)
    (resolvable : Resolvable env s) (entered : Entered env s token symbol) :
    Entered env (call.step env s) token symbol := by
  refine ⟨entered.own, ?_⟩
  cases call with
  | updateEthWhiteList sender other inList =>
    apply transact_preserves (·.lockedTokenList symbol = token)
      (updateEthWhiteList env sender other inList) s _ entered.entry
    intro u t run
    obtain ⟨_, _, rfl⟩ := updateEthWhiteList_succeeds run
    exact entered.entry
  | bulkWhitelistUpdateLimits sender tokens =>
    apply transact_preserves (·.lockedTokenList symbol = token)
      (bulkWhitelistUpdateLimits env sender tokens) s _ entered.entry
    intro u t run
    obtain ⟨_, r, operator, loop⟩ := bind_ok run
    simp only [BridgeBank.onlyOperator, read_then, require_succeeds] at operator
    obtain ⟨_, rfl⟩ := operator
    rw [(bulk_resolvable tokens s t u separate.1 separate.2 resolvable loop).2]
    exact entered.entry
  | lock sender value recipient other amount =>
    apply transact_preserves (·.lockedTokenList symbol = token)
      (BridgeBank.lock env sender value recipient other amount) s _ entered.entry
    intro written t run
    obtain ⟨own, _, _, rfl⟩ := lock_succeeds run
    show Function.update s.lockedTokenList written other symbol = token
    by_cases same : symbol = written
    · subst same
      rw [Function.update_self]
      exact entered_unique resolvable entered own
    · rw [Function.update_of_ne same]
      exact entered.entry
  | unlock sender recipient spelled amount =>
    have same := congrArg (fun tables => tables.2.1)
      (preserves_transact (@unlock_scope H τ env _ sender recipient spelled amount) s)
    exact (congrFun same symbol).trans entered.entry
  | elsewhere => exact entered.entry

theorem locks_entered {call : BankCall τ} (locked : call.locks env s = some (token, symbol)) :
    Entered env (call.step env s) token symbol := by
  cases call with
  | lock sender value recipient other amount =>
    rcases run : (BridgeBank.lock env sender value recipient other amount).run s with ⟨outcome, t⟩
    simp only [BankCall.locks, run] at locked
    cases outcome with
    | error e => cases locked
    | ok written =>
      cases locked
      obtain ⟨own, _, _, after⟩ := lock_succeeds run
      have stepped : BankCall.step env (.lock sender value recipient token amount) s = t := by
        rw [BankCall.step, transact, run]
      rw [stepped, after]
      exact ⟨own.imp_right And.left, Function.update_self ..⟩
  | updateEthWhiteList | bulkWhitelistUpdateLimits | unlock | elsewhere => cases locked

theorem entered_resolves (collisionFree : Function.Injective env.keccak256)
    (resolvable : Resolvable env s) (entered : Entered env s token symbol) :
    resolve env s symbol = token ∧ resolve env s (toLower symbol) = token := by
  have spelled : s.lowerToUpperTokens (toLower symbol) = symbol := by
    rcases entered.own with ⟨_, rfl⟩ | named
    · rw [toLower_eth]
      exact resolvable.ether_spelled
    · exact (resolvable.spelled token symbol ⟨named, .inr entered.entry⟩).1
  constructor
  · have found : safeLowerToUpperTokens env s symbol = symbol := by
      unfold safeLowerToUpperTokens
      dsimp only
      split
      · rfl
      next written =>
        -- a written key is in lower case, so it is the one of this symbol
        have lower := resolvable.lower_keys symbol (fun empty => written (by rw [empty]))
        rw [lower] at spelled
        exact spelled
    rw [resolve, found]
    exact entered.entry
  · have found : safeLowerToUpperTokens env s (toLower symbol) = symbol := by
      unfold safeLowerToUpperTokens
      rw [spelled]
      dsimp only
      split
      next empty =>
        rw [collisionFree empty]
        rfl
      · rfl
    rw [resolve, found]
    exact entered.entry

/-- **Redeemable.** If the tokens that are put on the list or taken off it are apart, a token
    that has been locked is the one that its symbol releases, in either spelling, in every
    later state. -/
theorem locked_tokens_redeemable (env : TokenWorld H τ) (collisionFree : Function.Injective env.keccak256)
    (s : BridgeBankState τ) (calls later : List (BankCall τ)) (call : BankCall τ) (token : Address)
    (symbol : Symbol)
    (separate : EventRuns.Guarded (BankCall.step env) (fun s call => call.Separate env s)
      (calls ++ call :: later) (initializedTables s))
    (locked : call.locks env (runBank env calls (initializedTables s)) = some (token, symbol)) :
    let after := runBank env (calls ++ call :: later) (initializedTables s)
    resolve env after symbol = token ∧ resolve env after (toLower symbol) = token := by
  intro after
  obtain ⟨first, met, rest⟩ := (EventRuns.guarded_append _).mp separate
  have before : Resolvable env (runBank env calls (initializedTables s)) :=
    EventRuns.run_preserves (BankCall.step env) (fun s call => call.Separate env s) (Resolvable env)
      (fun s call met now => step_resolvable met now) calls _ first (resolvable_initialized s)
  have entered := locks_entered locked
  have kept := EventRuns.run_preserves (BankCall.step env) (fun s call => call.Separate env s)
    (fun s => Resolvable env s ∧ Entered env s token symbol)
    (fun s call met now => ⟨step_resolvable met now.1, step_entered met now.1 now.2⟩)
    later _ rest ⟨step_resolvable met before, entered⟩
  have last : after = EventRuns.run (BankCall.step env) later
      (call.step env (runBank env calls (initializedTables s))) := EventRuns.run_append _ _ _ _
  rw [last]
  exact entered_resolves collisionFree kept.1 kept.2

/-! Tokens that accept every transfer. -/
namespace PlainTokens

def world (symbol : Address → Option Symbol) (symbol_zero : symbol 0 = none) :
    TokenWorld (List UInt8) Unit where
  keccak256 := id
  symbol := symbol
  safeTransferFrom _ _ _ _ := .ok ()
  safeTransfer _ _ _ _ := .ok ()
  sendEther _ _ _ := .ok ()
  symbol_zero := symbol_zero

def upper : Symbol := [65, 66, 67]
def lower : Symbol := [97, 98, 99]

def different : TokenWorld (List UInt8) Unit :=
  world (fun a => if a = 1 then some upper else if a = 2 then some [88] else none) (by decide)

def alike : TokenWorld (List UInt8) Unit :=
  world (fun a => if a = 1 ∨ a = 2 then some upper else if a = 3 then some lower else none) (by decide)

def start : BridgeBankState Unit :=
  ⟨7, 8, fun _ => false, fun _ => 0, fun _ => [], 0, false, false, fun _ => false, ()⟩

def operator : Caller := ⟨7, operator_nonzero⟩

def deposit (token : Address) : BankCall Unit :=
  .lock operator 0 ([0x73, 0x69, 0x66] ++ List.replicate 39 0) token 5

theorem different_apart {s : BridgeBankState Unit} (token : Address) : TokenApart different s token := by
  intro symbol named
  simp only [different, world] at named
  split at named
  · cases named
    refine ⟨by decide, fun other spelled tracked same => ?_⟩
    have spells := tracked.1
    simp only [different, world] at spells
    split at spells
    · simp_all
    · split at spells
      · cases spells
        exact absurd same (by decide)
      · cases spells
  · split at named
    · cases named
      refine ⟨by decide, fun other spelled tracked same => ?_⟩
      have spells := tracked.1
      simp only [different, world] at spells
      split at spells
      · cases spells
        exact absurd same (by decide)
      · split at spells
        · simp_all
        · cases spells
    · cases named

end PlainTokens

open PlainTokens in
theorem locked_tokens_redeemable_two :
    let calls := [.updateEthWhiteList operator 1 true]
    let later := [.updateEthWhiteList operator 2 true, deposit 2]
    let after := runBank different (calls ++ deposit 1 :: later) (initializedTables PlainTokens.start)
    after.lockBurnNonce = 2 ∧ resolve different after upper = 1 ∧ resolve different after (toLower upper) = 1 := by
  intro calls later after
  refine ⟨by decide +kernel, locked_tokens_redeemable different (fun _ _ same => same) PlainTokens.start
    calls later (deposit 1) 1 upper ?_ (by decide +kernel)⟩
  exact ⟨different_apart 1, trivial, different_apart 2, trivial, trivial⟩

open PlainTokens in
/-- The first token is locked, then the second one under the same symbol: the symbol releases
    the second one. If the third token is put on the list instead, the lower-case symbol
    releases ether. -/
theorem locked_token_replaced :
    let replaced := runBank alike [.updateEthWhiteList operator 1 true, .updateEthWhiteList operator 2 true,
      deposit 1, deposit 2] (initializedTables PlainTokens.start)
    let shadowed := runBank alike [.updateEthWhiteList operator 1 true, deposit 1,
      .updateEthWhiteList operator 3 true] (initializedTables PlainTokens.start)
    replaced.lockBurnNonce = 2 ∧ resolve alike replaced upper = 2 ∧
      shadowed.lockBurnNonce = 1 ∧ resolve alike shadowed upper = 1 ∧
      resolve alike shadowed (toLower upper) = 0 := by
  decide +kernel

end FuryNode
