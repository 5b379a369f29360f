import LazyPeg.Unicode.RangeSet

/-!
# Simple case folding

Two characters differ only in case when their simple case foldings are equal (Unicode 16.0).  The
table lists the characters that folding changes: for each the distance from the one before it in the
table, then the signed distance to its folding, where `2k` stands for `k` and `2k - 1` for `-k`.  The
numbers are written as in `RangeSet.lean`.
-/
namespace LazyPeg.Unicode

/-- The characters that folding changes, in written form. -/
def foldingCode : String :=
  "cNcMBcMBcMBcMBcMBcMBcMBcMBcMBcMBcMBcMBcMBcMBcMBcMBcMBcMBcMBcMBcMBcMBcMBcMBcMBcMdNchQLcMBcM" ++
  "BcMBcMBcMBcMBcMBcMBcMBcMBcMBcMBcMBcMBcMBcMBcMBcMBcMBcMBcMBcMBcMCcMBcMBcMBcMBcMBcMBcMbICCCC" ++
  "CCCCCCCCCCCCCCCCCCCCCCCCCCCCCCCCCCCCCCCCCCCECCCCCDCCCCCCCCCCCCCCCDCCCCCCCCCCCCCCCCCCCCCCCC" ++
  "CCCCCCCCCCCCCCCCCCCCCCjHBCCCCCCuPCqEBCCCCpWBCCpUBpUBCDgCBpOBpQBCCpUBpYCqGBqCBCEqGBqKCqMBCC" ++
  "CCCCqUBCCqUDCCqUBCCqSBqSBCCCCqWBCECIEBCCEBCCEBCCCCCCCCCCCCCCCCCDCCCCCCCCCCCCCCCCCDEBCCCChL" ++
  "BeHBCCCCCCCCCCCCCCCCCCCCCCCCCCCCCCCCCCCCCCCCjZCCCCCCCCCCCCCCCCCCIbfyKBCCmNBbfyEDCCoZBfIBfM" ++
  "BCCCCCCCCCjNiYbRCCCECJiYHcYCcWBcWBcWCeYCeWBeWCcMBcMBcMBcMBcMBcMBcMBcMBcMBcMBcMBcMBcMBcMBcM" ++
  "BcMBcMCcMBcMBcMBcMBcMBcMBcMBcMBcMXCNQBcHBbXEbDBbRCCCCCCCCCCCCCCCCCCCCCCCCCeDBdRDePBeXCCCNB" ++
  "CDjZBjZBjZBgEBgEBgEBgEBgEBgEBgEBgEBgEBgEBgEBgEBgEBgEBgEBgEBcMBcMBcMBcMBcMBcMBcMBcMBcMBcMBc" ++
  "MBcMBcMBcMBcMBcMBcMBcMBcMBcMBcMBcMBcMBcMBcMBcMBcMBcMBcMBcMBcMBcMbXCCCCCCCCCCCCCCCCCCCCCCCC" ++
  "CCCCCCCCCKCCCCCCCCCCCCCCCCCCCCCCCCCCCCCCCCCCCCCCCCCCCCCCCCCCCCCCbEBCCCCCCCCCCCCCDCCCCCCCCC" ++
  "CCCCCCCCCCCCCCCCCCCCCCCCCCCCCCCCCCCCCCCCCCCCCCCCCCCCCCCCCCCCCCCCCCCCCCCCCCCCCCCCCCCCCCDdSB" ++
  "dSBdSBdSBdSBdSBdSBdSBdSBdSBdSBdSBdSBdSBdSBdSBdSBdSBdSBdSBdSBdSBdSBdSBdSBdSBdSBdSBdSBdSBdSB" ++
  "dSBdSBdSBdSBdSBdSBdSehEvmUBvmUBvmUBvmUBvmUBvmUBvmUBvmUBvmUBvmUBvmUBvmUBvmUBvmUBvmUBvmUBvmU" ++
  "BvmUBvmUBvmUBvmUBvmUBvmUBvmUBvmUBvmUBvmUBvmUBvmUBvmUBvmUBvmUBvmUBvmUBvmUBvmUBvmUBvmUCvmUGv" ++
  "mUbfFPBPBPBPBPBPdfVskPBskNBsjVBsjRBsjRBsjTBsjFBshJBeaiWBCHixJBixJBixJBixJBixJBixJBixJBixJB" ++
  "ixJBixJBixJBixJBixJBixJBixJBixJBixJBixJBixJBixJBixJBixJBixJBixJBixJBixJBixJBixJBixJBixJBix" ++
  "JBixJBixJBixJBixJBixJBixJBixJBixJBixJBixJBixJBixJDixJBixJBixJmJCCCCCCCCCCCCCCCCCCCCCCCCCCC" ++
  "CCCCCCCCCCCCCCCCCCCCCCCCCCCCCCCCCCCCCCCCCCCCCCCCCCCCCCCCCCCCCCCCCCCCCCCCCCCCCCCCCCCCCCCCCC" ++
  "CCCCCCCCCCCCCCCCCCCCCCCCCCCCCCCCHeLDwnTCCCCCCCCCCCCCCCCCCCCCCCCCCCCCCCCCCCCCCCCCCCCCCCCCCC" ++
  "CCCCCCCCCCCCCCCCCCCCCCCCCCCCCCCCCCCCCCCCCCCCCKPBPBPBPBPBPBPBPJPBPBPBPBPBPLPBPBPBPBPBPBPBPJ" ++
  "PBPBPBPBPBPBPBPJPBPBPBPBPBPMPCPCPCPJPBPBPBPBPBPBPBPZPBPBPBPBPBPBPBPJPBPBPBPBPBPBPBPJPBPBPB" ++
  "PBPBPBPBPJPBPBfRBfRBRCvfTKgPBgPBgPBgPBRHvkNFPBPBhRBhRIvjHFPBPBiPBiPBNMjVBjVBjRBjRBRlMwgFEy" ++
  "uVBylNHcEbUbGBbGBbGBbGBbGBbGBbGBbGBbGBbGBbGBbGBbGBbGBbGBbGUCbfNcABcABcABcABcABcABcABcABcAB" ++
  "cABcABcABcABcABcABcABcABcABcABcABcABcABcABcABcABcAcsVdSBdSBdSBdSBdSBdSBdSBdSBdSBdSBdSBdSBd" ++
  "SBdSBdSBdSBdSBdSBdSBdSBdSBdSBdSBdSBdSBdSBdSBdSBdSBdSBdSBdSBdSBdSBdSBdSBdSBdSBdSBdSBdSBdSBd" ++
  "SBdSBdSBdSBdSBdSbXCCbfuJBlhJBbftDDCCCCCCbfxFBbfuVBbfxLBbfxJCCDCJbfzXBbfzXBCCCCCCCCCCCCCCCC" ++
  "CCCCCCCCCCCCCCCCCCCCCCCCCCCCCCCCCCCCCCCCCCCCCCCCCCCCCCCCCCCCCCCCCCCCCCCCCCCCCCCCCCCJCCCFCb" ++
  "tyKCCCCCCCCCCCCCCCCCCCCCCCCCCCCCCCCCCCCCCCCCCCCCUCCCCCCCCCCCCCCCCCCCCCCCCCCCfGCCCCCCCCCCCC" ++
  "CECCCCCCCCCCCCCCCCCCCCCCCCCCCCCCCCCCCCCCCCCCCCCCCCCCCCCCCCCCCCCLCCCCeanVBCCCCCCCCCFCCevcHD" ++
  "CCCECCCCCCCCCCCCCCCCCCCCeveLBevfHBeveZBeveFBeveLCevaPBevcLBevaVBctKBCCCCCCCCCCCCCCCCdRBeve" ++
  "JBearVBCCCCevhDBCECGCCCCCCevxXZCbiHekzNBekzNBekzNBekzNBekzNBekzNBekzNBekzNBekzNBekzNBekzNB" ++
  "ekzNBekzNBekzNBekzNBekzNBekzNBekzNBekzNBekzNBekzNBekzNBekzNBekzNBekzNBekzNBekzNBekzNBekzNB" ++
  "ekzNBekzNBekzNBekzNBekzNBekzNBekzNBekzNBekzNBekzNBekzNBekzNBekzNBekzNBekzNBekzNBekzNBekzNB" ++
  "ekzNBekzNBekzNBekzNBekzNBekzNBekzNBekzNBekzNBekzNBekzNBekzNBekzNBekzNBekzNBekzNBekzNBekzNB" ++
  "ekzNBekzNBekzNBekzNBekzNBekzNBekzNBekzNBekzNBekzNBekzNBekzNBekzNBekzNBekzNbeaOCboMcMBcMBcM" ++
  "BcMBcMBcMBcMBcMBcMBcMBcMBcMBcMBcMBcMBcMBcMBcMBcMBcMBcMBcMBcMBcMBcMBcMbvAdCBdCBdCBdCBdCBdCB" ++
  "dCBdCBdCBdCBdCBdCBdCBdCBdCBdCBdCBdCBdCBdCBdCBdCBdCBdCBdCBdCBdCBdCBdCBdCBdCBdCBdCBdCBdCBdCB" ++
  "dCBdCBdCBdCfHdCBdCBdCBdCBdCBdCBdCBdCBdCBdCBdCBdCBdCBdCBdCBdCBdCBdCBdCBdCBdCBdCBdCBdCBdCBdC" ++
  "BdCBdCBdCBdCBdCBdCBdCBdCBdCBdCgBdABdABdABdABdABdABdABdABdABdABdACdABdABdABdABdABdABdABdABd" ++
  "ABdABdABdABdABdABdACdABdABdABdABdABdABdACdABdAcqDeYBeYBeYBeYBeYBeYBeYBeYBeYBeYBeYBeYBeYBeY" ++
  "BeYBeYBeYBeYBeYBeYBeYBeYBeYBeYBeYBeYBeYBeYBeYBeYBeYBeYBeYBeYBeYBeYBeYBeYBeYBeYBeYBeYBeYBeY" ++
  "BeYBeYBeYBeYBeYBeYBeYgCcMBcMBcMBcMBcMBcMBcMBcMBcMBcMBcMBcMBcMBcMBcMBcMBcMBcMBcMBcMBcMBcMeg" ++
  "PcMBcMBcMBcMBcMBcMBcMBcMBcMBcMBcMBcMBcMBcMBcMBcMBcMBcMBcMBcMBcMBcMBcMBcMBcMBcMBcMBcMBcMBcM" ++
  "BcMBcMbgjXcMBcMBcMBcMBcMBcMBcMBcMBcMBcMBcMBcMBcMBcMBcMBcMBcMBcMBcMBcMBcMBcMBcMBcMBcMBcMBcM" ++
  "BcMBcMBcMBcMBcMbulLcQBcQBcQBcQBcQBcQBcQBcQBcQBcQBcQBcQBcQBcQBcQBcQBcQBcQBcQBcQBcQBcQBcQBcQ" ++
  "BcQBcQBcQBcQBcQBcQBcQBcQBcQBcQ"

/-- The folding pairs that a list of distances describes, after the character `previous`. -/
def foldingPairs (previous : Nat) : List Nat → List (Nat × Nat)
  | step :: signed :: rest =>
    let source := previous + step
    let target := if signed % 2 = 0 then source + signed / 2 else source - (signed + 1) / 2
    (source, target) :: foldingPairs source rest
  | _ => []

/-- Each code point that folding changes, with its folding. -/
def foldings : List (Nat × Nat) := foldingPairs 0 (RangeSet.numbers foldingCode)

/-- The simple case folding of a code point. -/
def foldCase (n : Nat) : Nat := (foldings.lookup n).getD n

/-- All code points that differ from `n` only in case, `n` among them. -/
def caseVariants (n : Nat) : List Nat :=
  let folded := foldCase n
  folded :: (foldings.filter fun pair => pair.2 == folded).map (·.1)

end LazyPeg.Unicode
