import LazyPeg.Unicode.RangeSet

/-!
# Segmentation properties

The classes of characters that grapheme, word and sentence boundaries are defined by
(Unicode 16.0).  The class of all other characters has no entry.
-/
namespace LazyPeg.Unicode

/-- Grapheme cluster break. -/
def graphemeBreaks : PropertyTable := [
  (["cn", "control"],
    "AJBBBRdRbGNAcbMAguRAdaQACBYGbXPdghJAjGLtuAPbzqUDhwXHbtkzLbFdSeXjGfiL"),
  (["cr"],
    "NA"),
  (["ex", "extend"],
    "bdOeHkPGkDbSBABBBBBAcUKbWUQAdXGCFCBBDbJAbEbAdNKcGIJAYDBIBCBEbRCcHIbQXBbFcDABAEHEADGKBbDA" ++
    "cGABACDIAJAKBbAACBcFAEBEBCCDAbEBDALBcFAEEBBEAUBWFBAcGABBBDIAHCKBbEAcHABAMAJAbOADAcDABCFC" ++
    "BDHBLBbDAcGACBBADCBDHBLBbCBcFBBACDIAJAKBbDAcUAEACCBAIAdDACGMHdUACILGcVBbBABABAcDNBEBBFKB" ++
    "bJJAdYDBFBBCBZBECQDNACBGAPAbbBCbkKDbCCbDBbEBcMBBGIACKJAbTCBAeNBbIAeOCEBJAGCiLBCAcGABGBAB" ++
    "ACHGJCAbWbEbXDbWJECbMIMBbGDCFcEABBDABEcEHCBfWCBMBGEAGADBhQcLuEAhNbGeoCCfLAdSbFvIFeBBbsqE" ++
    "DBJbGBdCBkMADAEAZBFAfVBbARNAbMHZKBAbSCbWACDCBCAbKAcPFCBCBMAIAbVAbZABCCBFBBAbQBIAjEACAEAb" ++
    "dzSAbcJPQPoCBxHAiSAfTEcmGCBBFDbOCEAgJBwBDcNEmFBdBDcSKbXDeTAcCObPACBKCbXDCBHAcJCbKEBHcKAM" ++
    "BcAIBAIDCAdRCCDGACAgBADHVBcFBBABAMAJAOGDEcPACFBACABCECBAOBdHHCCBAXAdDACFBACABBBBjBACDGBB" ++
    "BbBBdHHCABBeCABACHdXABACDBEjZIBBjLAKDEAfODCBEAbGJbOFCDIAJFCCbUMBBpQGBFBAdEVCGBBBBeSFDABB" ++
    "BGBAcUBDABAnJBLBcAEFCXAhxTAGOqyYLDCdsAEcHGboIAcLDdDALBbdaXBgyZbTCWuWEDFIHCGbEDfSCcyDcCEb" ++
    "XIAOAWEBOcaIGBQCGBBBEdWAgEGoLAcJDtODjUBbcIGeFGebGEbsxyUdReYjF"),
  (["l"],
    "glKdRcfoQbC"),
  (["lf"],
    "KA"),
  (["lv"],
    "cndOAbBAbBAbBAbBAbBAbBAbBAbBAbBAbBAbBAbBAbBAbBAbBAbBAbBAbBAbBAbBAbBAbBAbBAbBAbBAbBAbBAbB" ++
    "AbBAbBAbBAbBAbBAbBAbBAbBAbBAbBAbBAbBAbBAbBAbBAbBAbBAbBAbBAbBAbBAbBAbBAbBAbBAbBAbBAbBAbBA" ++
    "bBAbBAbBAbBAbBAbBAbBAbBAbBAbBAbBAbBAbBAbBAbBAbBAbBAbBAbBAbBAbBAbBAbBAbBAbBAbBAbBAbBAbBAb" ++
    "BAbBAbBAbBAbBAbBAbBAbBAbBAbBAbBAbBAbBAbBAbBAbBAbBAbBAbBAbBAbBAbBAbBAbBAbBAbBAbBAbBAbBAbB" ++
    "AbBAbBAbBAbBAbBAbBAbBAbBAbBAbBAbBAbBAbBAbBAbBAbBAbBAbBAbBAbBAbBAbBAbBAbBAbBAbBAbBAbBAbBA" ++
    "bBAbBAbBAbBAbBAbBAbBAbBAbBAbBAbBAbBAbBAbBAbBAbBAbBAbBAbBAbBAbBAbBAbBAbBAbBAbBAbBAbBAbBAb" ++
    "BAbBAbBAbBAbBAbBAbBAbBAbBAbBAbBAbBAbBAbBAbBAbBAbBAbBAbBAbBAbBAbBAbBAbBAbBAbBAbBAbBAbBAbB" ++
    "AbBAbBAbBAbBAbBAbBAbBAbBAbBAbBAbBAbBAbBAbBAbBAbBAbBAbBAbBAbBAbBAbBAbBAbBAbBAbBAbBAbBAbBA" ++
    "bBAbBAbBAbBAbBAbBAbBAbBAbBAbBAbBAbBAbBAbBAbBAbBAbBAbBAbBAbBAbBAbBAbBAbBAbBAbBAbBAbBAbBAb" ++
    "BAbBAbBAbBAbBAbBAbBAbBAbBAbBAbBAbBAbBAbBAbBAbBAbBAbBAbBAbBAbBAbBAbBAbBAbBAbBAbBAbBAbBAbB" ++
    "AbBAbBAbBAbBAbBAbBAbBAbBAbBAbBAbBAbBAbBAbBAbBAbBAbBAbBAbBAbBAbBAbBAbBAbBAbBAbBAbBAbBAbBA" ++
    "bBAbBAbBAbBAbBAbBAbBAbBAbBAbBAbBAbBAbBAbBAbBAbBAbBAbBAbBAbBAbBAbBAbBAbBAbBAbBAbBAbBAbBAb" ++
    "BAbBAbBAbBAbBAbBAbBAbBAbBAbBAbBAbBAbBAbBAbBAbBAbBAbBAbBAbBAbBAbBAbBAbBAbBAbBAbBAbBAbBAbB" ++
    "AbBAbBAbBAbBAbBAbBAbBAbBAbBAbBAbBAbBAbBAbBAbBAbBAbBAbBA"),
  (["lvt"],
    "cndPbABbABbABbABbABbABbABbABbABbABbABbABbABbABbABbABbABbABbABbABbABbABbABbABbABbABbABbAB" ++
    "bABbABbABbABbABbABbABbABbABbABbABbABbABbABbABbABbABbABbABbABbABbABbABbABbABbABbABbABbABb" ++
    "ABbABbABbABbABbABbABbABbABbABbABbABbABbABbABbABbABbABbABbABbABbABbABbABbABbABbABbABbABbA" ++
    "BbABbABbABbABbABbABbABbABbABbABbABbABbABbABbABbABbABbABbABbABbABbABbABbABbABbABbABbABbAB" ++
    "bABbABbABbABbABbABbABbABbABbABbABbABbABbABbABbABbABbABbABbABbABbABbABbABbABbABbABbABbABb" ++
    "ABbABbABbABbABbABbABbABbABbABbABbABbABbABbABbABbABbABbABbABbABbABbABbABbABbABbABbABbABbA" ++
    "BbABbABbABbABbABbABbABbABbABbABbABbABbABbABbABbABbABbABbABbABbABbABbABbABbABbABbABbABbAB" ++
    "bABbABbABbABbABbABbABbABbABbABbABbABbABbABbABbABbABbABbABbABbABbABbABbABbABbABbABbABbABb" ++
    "ABbABbABbABbABbABbABbABbABbABbABbABbABbABbABbABbABbABbABbABbABbABbABbABbABbABbABbABbABbA" ++
    "BbABbABbABbABbABbABbABbABbABbABbABbABbABbABbABbABbABbABbABbABbABbABbABbABbABbABbABbABbAB" ++
    "bABbABbABbABbABbABbABbABbABbABbABbABbABbABbABbABbABbABbABbABbABbABbABbABbABbABbABbABbABb" ++
    "ABbABbABbABbABbABbABbABbABbABbABbABbABbABbABbABbABbABbABbABbABbABbABbABbABbABbABbABbABbA" ++
    "BbABbABbABbABbABbABbABbABbABbABbABbABbABbABbABbABbABbABbABbABbABbABbABbABbABbABbABbABbAB" ++
    "bABbABbABbABbABbABbABbABbABbABbABbABbABbABbABbABbABbABbA"),
  (["pp", "prepend"],
    "chCFiHAbXAoUBdCAbrNAdugKAPAjKBuFAcbLABAjOAcVFbaYArBA"),
  (["ri", "regionalindicator"],
    "hgoKZ"),
  (["sm", "spacingmark"],
    "dkTAcDACCIDBBbYBcHBGBCBcCAcGCcOAcGCIABBcBBcIAGBCBeKABBDCBCcACcJDcJBcGACABBbUAOBcHBFCBCcB" ++
    "BcYBGGTBcLAeXAfIBcLAgVAJBZBbSAcsVAHHBBnIDCCEBBFiQBcGABAVFfPAcFDcMAbEAEBcLACCBAcBHIBgPAVA" ++
    "casHBCAdKBbYPfMAbWAbWBEBCBeHBCBYAgBACBFAjDBBBBBBAblxJABAeXAbTCEBeLAYBcHAbWCJAOAdPCDBgQCb" ++
    "FBcHABDCBCBVBdHBPABBdZCIBDAeDBGABBBACAjEBGDCAeJCIBBAeFABBeGAHAkBCJAjOEBBHABAfMCIDEAdGAbD" ++
    "BcKApRAOAeCAHACAiFEEBBAnMBMAbWBIByzACfjGcC"),
  (["t"],
    "grWdJcwxNbW"),
  (["v"],
    "gpCcTcwzWWcerCADD"),
  (["zwj"],
    "mdPA")]

/-- Word break. -/
def wordBreaks : PropertyTable := [
  (["cr"],
    "NA"),
  (["dq", "doublequote"],
    "bIA"),
  (["ex", "extendnumlet"],
    "dRAmbFAPBTAdgaOBYCjFA"),
  (["extend"],
    "bdOeHkPGkDbSBABBBBBAcUKbWUQAdXGCFCBBDbJAbEbAdNKcGIJAYDBIBCBEbRCcHIbQXBbGcCCBRBGKBbDCcEAB" ++
    "GCBCCJAKBbAACCcEABEEBCCDAbEBDALCcEABHBCBCUBWFBCcEABGCBCCHCKBbEAcHEDCBDJAbOEcDABGBCBDHBLB" ++
    "bDCcEABGBCBDHBLBPAMDcDBBGBCBDJAKBbDCcSAEFBABHSBcJACGMHdUACILGcVBbBABABAEBbXTBBFKBbJJAdWT" ++
    "XDECBCCGDDNLBAKDbbBCbkKDbCCbDBbEBcMbFJAbTCBAeNBbIAeOLELiLEcFJBbCCAbWbEbXEbVQbMIMCbEMcENb" ++
    "WTfWCBUEAGACChQcLuEAhNbGeoCCfLAdSbFvIFeBBbsqEDBJbGBdCBkMADAEAXEEAdFBbYRbARNAbMHZMbSDbVNb" ++
    "KAcPNMAIBbTCbYABCCBFBBAbPEFBjCHBBbdzSAbcJPQPoCBxHAiSAfTEcmGCBBFDbOCEAgJBwBDcNEmFBdBDcSKb" ++
    "XDeSCcBObPACBKDbTKHAcJCbKNQBbSAMCbWNIDBBdOLGACAgBLVDcDBBGCBCCJAKBCGDEcPIBACABDBEBAOBdERX" ++
    "AdDTjBGCIbBBdEQeCMdXOjWOjLFBBCDBABBfLGCGDAbCJbOGBDIAJKbUPpPHBHdEVBNeSFDABBBGBAcOEBBBEnJD" ++
    "JBBAbWGDEXAhxTAGOqyYRdsAEcHGboIABcCHDdDALBbdaXBgyZbTCWuWEDFIHCGbEDfSCcyDcCEbXIAOAWEBOcaI" ++
    "GBQCGBBBEdWAgEGoLAcJDtODjUBbcIGeFGebGEbsxyUdReYjF"),
  (["fo", "format"],
    "gRAcbMAguRAdaTBbAEbXEBJdghJAjPCtuAPbzqUDhwXHbtkzMA"),
  (["hl", "hebrewletter"],
    "cfGbAEDdovYABJBMBEBABBBBBJ"),
  (["ka", "katakana"],
    "sgNEdXBDdMBDjGPiAbUBdJczhEcDcouCDBGBBBAlBCbYAOD"),
  (["le", "aletter"],
    "cNZGZbVAKAEAFWBbEBsLGbHeIEBBCDBAGABCBABTBdEBfIIgJBbLCDBABbOBAeAAbSbQbJBBdUBAPBHBKCCAPBBb" ++
    "DbDdKLAYbGJBEAFVEAJADAXYHKFXBFRbPcGcBDASAHJPPEHCBCVBGBADDDAQANBBCOBKAIFEBCVBGBBBBBBbFDBA" ++
    "TCQIBCBVBGBBBEDASAPBXALHCBCVBGBBBEDAbEBBCPARABFDCBDDBBABBDBDCDLWAcAHBCBWBPDAbACCACBbEAEH" ++
    "BCBWBJBEDAbFBBBPBRIBCBbOCAQAFCICYFFRDXBIBACGmBAcLHBbJbBEkPbLBAFACbQBmUBDCGBABDCbOBDCbGBD" ++
    "CGBABDCOBcEBDCcObLPQdHCFDxVCQBZFcWDKHRNSOROMBCgTdKHECbHBAFcRKbEiRWjEbURHcCbDNBKbRbAbJbPC" ++
    "KbJCKFbQCCbPDBFBBDAFhJcMkRCFCbLCFCHBABABABbECcABGBADCBGDDCFEMFCBGeMANAQMdXAEACJBADEGABAB" ++
    "ABDBKCDFEEARbObfHbZcrUiUGDDBMbLBAFACcDHAQWJGBGBGBGBGBGBGBGdCAsBAcBBhSbQBdPRbFbptObsUcPbT" ++
    "CkIDPKBUbUQbECdBYhPCBBABHVPBCBDBWbDbZObXcKFDABBLbBKWZbCHbUbCAbWbOXCBHfSKHCMFCFCFJGBGBcFG" ++
    "eKbDqnRMWEbWngUGMEcEdTbHnYScLCcBbOLeMEBfEbKZGZcRbEDFCFCFCCbJLBZBSBBBOCNbIeScRcAkHbCDbWbV" ++
    "bFNbDFbLKbDCbJEHBEbQgBSbJEbJEbNIbZMKBOBGBBBKBOBGBBDbZMlYJVKHYFBbPBIcRFCABbRBBDACWKWJbEcN" ++
    "SBBKVKZcScDGBcMAPDBCBbCbQbCDbCbJHBbBbBcBKVKSNReGcUcDbYNbYNbJbMbBJWjQbPGBQCcHbCKAIVbQRbUU" ++
    "bBWMcAcFBCANbSbGYbAbJbDACAIbIDAMbVODVABAbJRBYTBcLGBABDBOBJHbUbMHCBCVBGBBBEDASAMEbEJBACAB" ++
    "bLBAZABAbScASDUCbEbVUBBAhCbUbPDbKbVUAcHbQNAmPbReMcLbFHCACHBBBXPABAdQHCbMQABAbCAKbNHAVALb" ++
    "TTAScUhRbGbFIBbKRAbXbDeIGBBBbLVAZFBBBbFOAmPSPABMBbHeUAdBbjLdYeGRhNdxKdSPbpFRFZfxQFwKkdDb" ++
    "DcpUvWHbERdARbDSbVQDbFUFSqQbSiDcLeYcWFAcOMcMBBAbcvKeCFMDIHJiwKdGBcSBBCACBCDBLBABGBcMBDCH" ++
    "BGBbBBDBEBADGBnBCYBYBbEBYBbEBYBbEBYBbEBYBHcsYbEGFkBcJfQbSKGQAmJbDSbRsQbBiUbDCAtBGBDBBBOB" ++
    "hOcHcPHAbuIDBbABBBACABJBDBABAGAEABABABCBBBACABABABABABBBACDBGBDBDBABJBQFCBEBQyEZGZGZ"),
  (["lf"],
    "KA"),
  (["mb", "midnumlet"],
    "bUAmcFBKAdgdPAgYAGA"),
  (["ml", "midletter"],
    "cGAeUAbbRAsDAfSAjxYAdgbBAcNAhOA"),
  (["mn", "midnum"],
    "bSAOAbgCAuCAfABdQApFAjfFAdgcHADAhBAOA"),
  (["nl", "newline"],
    "LBeQAlzMB"),
  (["nu", "numeric"],
    "bWJceWFdMJBAeJASJhQJhQBdCAfBJeOJeOJeOJeOJeOJeOJeOJeOJeOJdSJeOJcSJkSJcSJctQJbMJlOJeYKgJJG" ++
    "JhAJdIJfEJGJcaeOJbaCJbMJhQJWJdIJpQJbfmCJccKJdfYJGJbeQJcZAPAbIJcIJfOJkSJnEJeOJoKJdYJGTcYJ" ++
    "qGJdYJzMJdIJjMJcSJqGJyyGJdmCJdIJfEJuOJbkdYJecQbXdnCJqGJtIJjNJbgVJhbAJ"),
  (["ri", "regionalindicator"],
    "hgoKZ"),
  (["sq", "singlequote"],
    "bNA"),
  (["wsegspace"],
    "bGAimHAdpNGBCdGAfxWA"),
  (["zwj"],
    "mdPA")]

/-- Sentence break. -/
def sentenceBreaks : PropertyTable := [
  (["at", "aterm"],
    "bUAmcRAdgdPAhFA"),
  (["cl", "close"],
    "bIAECbXABAbDABAbTAPAfmSDcuNBdpJHZBKBcCBOByJDbDBbpGFHNdBBbFJpNVcLDbGBbnMNOBCJYASHqLJCHBCc" ++
    "zrQBiHBbCPCBQFgNBbXABAbDABABBBBdpoSC"),
  (["cr"],
    "NA"),
  (["ex", "extend"],
    "bdOeHkPGkDbSBABBBBBAcUKbWUQAdXGCFCBBDbJAbEbAdNKcGIJAYDBIBCBEbRCcHIbQXBbGcCCBRBGKBbDCcEAB" ++
    "GCBCCJAKBbAACCcEABEEBCCDAbEBDALCcEABHBCBCUBWFBCcEABGCBCCHCKBbEAcHEDCBDJAbOEcDABGBCBDHBLB" ++
    "bDCcEABGBCBDHBLBPAMDcDBBGBCBDJAKBbDCcSAEFBABHSBcJACGMHdUACILGcVBbBABABAEBbXTBBFKBbJJAdWT" ++
    "XDECBCCGDDNLBAKDbbBCbkKDbCCbDBbEBcMbFJAbTCBAeNBbIAeOLELiLEcFJBbCCAbWbEbXEbVQbMIMCbEMcENb" ++
    "WTfWCBUEAGACChQcLuEBhMbGeoCCfLAdSbFvIFeBBbsqEDBJbGBdCBkMADAEAXEEAdFBbYRbARNAbMHZMbSDbVNb" ++
    "KAcPNMAIBbTCbYABCCBFBBAbPEFBjCHBBbdzSAbcJPQPoCBxHAiSAfTEcmGCBBFDbOCEAgJBwBDcNEmFBdBDcSKb" ++
    "XDeSCcBObPACBKDbTKHAcJCbKNQBbSAMCbWNIDBBdOLGACAgBLVDcDBBGCBCCJAKBCGDEcPIBACABDBEBAOBdERX" ++
    "AdDTjBGCIbBBdEQeCMdXOjWOjLFBBCDBABBfLGCGDAbCJbOGBDIAJKbUPpPHBHdEVBNeSFDABBBGBAcOEBBBEnJD" ++
    "JBBAbWGDEXAhxTAGOqyYRdsAEcHGboIABcCHDdDALBbdaXBgyZbTCWuWEDFIHCGbEDfSCcyDcCEbXIAOAWEBOcaI" ++
    "GBQCGBBBEdWAgEGoLAcJDtODjUBbcIGeFGbtcaFdReYjF"),
  (["fo", "format"],
    "gRAcbMAjIAglIAdaQACBbAEbXEBJdghJAjPCtuAPbzqUDhwXHbtkzMA"),
  (["le", "oletter"],
    "rBAEDiAAbKGGLbAABAfDAsQAeObAEEbSbQbJBBdUBAPBHBKCCAQABbDbDdKLAYbGJBEAFVEAJADAXYHKFXBFRbPc" ++
    "GcBDASAHJPPEHCBCVBGBADDDAQANBBCOBKAIFEBCVBGBBBBBBbFDBATCQIBCBVBGBBBEDASAPBXALHCBCVBGBBBE" ++
    "DAbEBBCPARABFDCBDDBBABBDBDCDLWAcAHBCBWBPDAbACCACBbEAEHBCBWBJBEDAbFBBBPBRIBCBbOCAQAFCICYF" ++
    "FRDXBIBACGcGbVBBMGcGBBABEBXBABJBBJACEBAVDbGAcLHBbJbBEeLbQUAQFEDDADBHCEMMAcNbQCmTBDCGBABD" ++
    "CbOBDCbGBDCGBABDCOBcEBDCcObLPeJxVCQBZFcWDKHRNSOROMBCPbZbJAEAcPdKHECbHBAFcRKbEbXbDCELbREZ" ++
    "cCWJcAdEAdPbURHcCbDNBKbRbAbJbPCKbJSbQCCbPDBFBBDAbpQDcTCCDekTcDHAQWJGBGBGBGBGBGBGBGdCAsBC" ++
    "ZIHECEEdHGCBdLBDFbQBdPRbFbWPtSjtNcMbguEcPbTCkIDPKBcOAQAbGdBbNIeAAGAdZADGBCBDBWbDbZObXcKF" ++
    "DABBLbBKWZbCHbUbCAQEBJKEBbOXCBHUWDADbXBADBCECABAYCCKHCMFCFCFJGBGfPbIbDqnRMWEbWmnCoBCeBcP" ++
    "ABJBMBEBABBBBBeDbHnYScLCcBbOLeMEBfEeBcDCbEDFCFCFCCbJLBZBSBBBOCNbIeScRcAkHbCDbWbVbFNbDFbL" ++
    "KbDCbJEHBEeScZdUbNIbZdObZMlYJVKHZBeVFCABbRBBDACWKWJbEcNSBBKVKZcScDGBcMAPDBCBbCbQbCDbCbJH" ++
    "BbBbBcBKVKSNReGcUhBbJbMFbFAkMbPGBQCcHbCKAIVbQRbUUbBWMcAcFBCANbSbGYbAbJbDACAIbIDAMbVODVAB" ++
    "AbJRBYTBcLGBABDBOBJHbUbMHCBCVBGBBBEDASAMEbEJBACABbLBAZABAbScASDUCbEbVUBBAhCbUbPDbKbVUAcH" ++
    "bQNAcTbAbLGhDbRiDHCACHBBBXPABAdQHCbMQABAbCAKbNHAVALbTTAScUhRbGbFIBbKRAbXbDeIGBBBbLVAZFBB" ++
    "BbFOAmPSPABMBbHeUAdBbjLdYeGRhNdxKdSPbpFRFZfxQFwKkdDbDcpUvWHbERdARbDSbVQDbFUFSqQbSpNcWFAc" ++
    "OMcMBBAbCjbZIbvPbPJnfRDBGBBBlEPAbDCCAODIpFdkUeCFMDIHJnbCAtHbSKGQAmJbDSbRsQbBiUbDCAtBGBDB" ++
    "BBOBhOfEAbuIDBbABBBACABJBDBABAGAEABABABCBBBACABABABABABBBACDBGBDBDBABJBQFCBEBQgoAclfBbGg" ++
    "dTGiNCinPOlbKPxXdqWuVcfYhhYFgfF"),
  (["lf"],
    "KA"),
  (["lo", "lower"],
    "dTZbVAKAEAbKXBHBABABABABABABABABABABABABABABABABABABABABABABABABABABABBBABABABABABABABBB" ++
    "ABABABABABABABABABABABABABABABABABABABABABABACABABCCABACADBEACADCCACABABACABBBACADABACBC" ++
    "CGACACABABABABABABABABBBABABABABABABABABBCABADABABABABABABABABABABABABABABABABABABABABAB" ++
    "ABABABABABABABABGCACBBAEABABABABcQBbJHBbEEfKABADACDSAbBbIBBDCBABABABABABABABABABABABEBAC" ++
    "ACBbZbVBABABABABABABABABABABABABABABABABAJABABABABABABABABABABABABABABABABABABABABABABAB" ++
    "ABABABACABABABABABABBBABABABABABABABABABABABABABABABABABABABABABABABABABABABABABABABABAB" ++
    "ABABABABABABABABABABABABABABAbWbOeiTAbdJFdfUIBAeNhJcNABABABABABABABABABABABABABABABABABA" ++
    "BABABABABABABABABABABABABABABABABABABABABABABABABABABABABABABABABABABABABABABABABABABABA" ++
    "BABABABABABABABABABABABABIBABABABABABABABABABABABABABABABABABABABABABABABABABABABABABABA" ++
    "BABABABABABABABABABABABABABABABABABIIFKHIHIFKHIHINCHIHIHIEBBGADCBBIDCBIHKCBBeRANAQMeFADB" ++
    "DAbBAEAEACBIDEAbHPEAbgLZctQbVBADBBABABAEABBBHDABABABABABABABABABABABABABABABABABABABABAB" ++
    "ABABABABABABABABABABABABABABABABABABABABABABABABABABABABBHABAEAMbLBAFAbtwDABABABABABABAB" ++
    "ABABABABABABABABABABABABABABABATABABABABABABABABABABABABABCfDABABABABABABCBABABABABABABA" ++
    "BABABABABABABABABABABABABABABABABABABABABABABABJBABACABABABABAEABACABCBABABABABABABABABA" ++
    "BAFAFABABABABABABABAEABACADABABABABABAWCBABCbfPbQBNGdBbeaIGMEboZZbvHbNfGbJfZKBOBGBBrJACC" ++
    "BbPBIbxLbYeVVegObFbgjWbFbmmKZbAGBRbAZbADBABGBKbAZbAZbAZbAZbAZbAZbAZbAZbAbBbCYBFbAYBFbAYB" ++
    "FbAYBFbAYBFBAcsYJBTGFkBcJdhSbH"),
  (["nu", "numeric"],
    "bWJceWFdMJBBeIASJhQJhQBdCAfBJeOJeOJeOJeOJeOJeOJeOJeOJeOJdSJeOJcSJkSJcSJctQJbMJlOJeYKgJJG" ++
    "JhAJdIJfEJGJcaeOJbaCJbMJhQJWJdIJpQJbfmCJccKJdfYJGJbeQJcZAPAbIJcIJfOJkSJnEJeOJoKJdYJGTcYJ" ++
    "qGJdYJzMJdIJjMJcSJqGJyyGJdmCJdIJfEJuOJbkdYJecQbXdnCJqGJtIJjNJbgVJhbAJ"),
  (["sc", "scontinue"],
    "bSBMBbgCAsKAgSBsWAgbXAFAdbEBgaUAdaaWBBBbCBbDBCBCAKAgMBMBcUA"),
  (["se", "sep"],
    "fDAlzMB"),
  (["sp"],
    "JABBTAeXAihJAdpNKbKAbVAfxWA"),
  (["st", "sterm"],
    "bHAbDAcaBAfRCgYAbRCjMAcJABADBlHBcpWBbeKAEBbdTAhQBgBBbTAFAmCBnQDgGBKBCBbDChFBcNBbkUBJCeuX" ++
    "ClUANAWBqNAbshWAkKBiTADAoSBdIBdRAfWBfRCfOBjPAbfcWACBcLBgNAbDAcNAedWBbxDEbSDhHBeNDeXCeZBG" ++
    "AQBdKBBBeEAlMBeNBoJBFOeBBjPCtXABAjRBdJBqEBbaQBcWBbcmBBfDAcNBLAvHBlKAbdoGAliMA"),
  (["up", "upper"],
    "cNZdXWBGbHABABABABABABABABABABABABABABABABABABABABABABABABABABABACABABABABABABABACABABAB" ++
    "ABABABABABABABABABABABABABABABABABABABABBBABADBBABBBCCDBBBCDBBBBABABBBACABBBCBABBDAHBBBB" ++
    "BBABABABABABABABACABABABABABABABABACBBABCBABABABABABABABABABABABABABABABABABABABABABABAB" ++
    "ABABABABABAHBBBCABDBABABABAlDABADAIAGABCBABBBQBIbJACCDABABABABABABABABABABABAFACABBCbYbW" ++
    "ABABABABABABABABABABABABABABABABAJABABABABABABABABABABABABABABABABABABABABABABABABABABAB" ++
    "BBABABABABABACABABABABABABABABABABABABABABABABABABABABABABABABABABABABABABABABABABABABAB" ++
    "ABABABABABABABABABABACbLehDbLBAFAbbUdHdgLAoKABABABABABABABABABABABABABABABABABABABABABAB" ++
    "ABABABABABABABABABABABABABABABABABABABABABABABABABABABABABABABABABABABABABABABABABABABAB" ++
    "ABABABABABABABABAJABABABABABABABABABABABABABABABABABABABABABABABABABABABABABABABABABABAB" ++
    "ABABABABABABABABABABABABABAJHIFKHIHIFLABABABAIHYHIHIHIELELDMELEkBAEADCCCCADEGABABABDCDKB" ++
    "FAbAPTAbfMZcsUbVbWABCCABABABDBACAICBABABABABABABABABABABABABABABABABABABABABABABABABABAB" ++
    "ABABABABABABABABABABABABABABABABABABABABABABAIABAEAbtyJABABABABABABABABABABABABABABABABA" ++
    "BABABABABABATABABABABABABABABABABABABABAfFABABABABABABADABABABABABABABABABABABABABABABAB" ++
    "ABABABABABABABABABABABABABABAKABABBBABABABAEABACABADABABABABABABABABABABEBEBABABABABABAB" ++
    "ABDBABBDAFABABABAYAbhaHZbuZbNfGbJgAKBOBGBBcqCbYgBVegObFbgjWbFbmmQZbAZbAZbAABBCACBCDBHbAZ" ++
    "bABBDCHBGbBBBDBEBADGbBZbAZbAZbAZbAZbAZbEYbHYbHYbHYbHYbHAgnLbHdbIZGZGZ")]

end LazyPeg.Unicode
