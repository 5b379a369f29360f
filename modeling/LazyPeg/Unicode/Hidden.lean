import LazyPeg.Unicode.RangeSet

/-!
# Characters without a visible form

A character is hidden if it leaves no mark of its own on the page, so that a text which shows it as
it is can be misread (Unicode 17.0):

- controls, formats, private and unassigned code points;
- separators, all but the blank;
- fillers and others that are ignored by default;
- marks that extend the grapheme of the character before them.
-/
namespace LazyPeg.Unicode

/-- The characters without a visible form. -/
def hidden : RangeSet := .ofCode <|
  "AbFdRbHMAwWeHIBGDHABAUAiQGgKAbMBbYBDbTBABBBBBIbBDGQKKBAbUUQAdXHBFCBBDbGBBAbEbCdLKBNbRIHCYD" ++
  "BIBCBGPAZEBALEbGPbQcEcDABAEHEADGKBbDACAIBCBWAHABCECBACFCBCABMCADDYEBAGDCBWAHACACACDDXEABGK" ++
  "BDABLBAJADAWAHACAFCEHBACCBOCDMGBHCAIBCBWAHACAFCBBBFCBCOCADDSKBAGCDAECCABACCCCDCMEBACCDADCB" ++
  "UVFDAIADAXAQCBCESDACBCDKGKALADAXAKAFCCBBACWDACDKADNLADAbPBBACEDADACDDAKDbABCASCYAJABBHICFH" ++
  "GKBDLbWACKIHNbKCABAFAYABAKACIBBFABIKBEbFYBbBABABAOAbKRBEBBFbWIAGANbKbTDBFBBCBZBECQDNACBGAP" ++
  "AbOABEBBfNBiYAEBHABAEBbPAEBbHAEBHABAEBPAcFAEBcPEbDCbAFdIBGByQAbCCdLGSMTCCISNNADOcABBGIACKJ" ++
  "CKFKFLEKFdLGFBbIABEcSJbFDEBDDCAGGBCbQBFKbSDbAFLCcFBCCcEABIBACHGMKFKFOdHbWJECIAbDIMBbGDCFcE" ++
  "ABBDABMbWHCEPCcKEbRBLKBMBGEAGADBBEhKcLkSBGBbMBGBIABABABAbFBcBAPAOBGATBDAJQYHbVQCBbBANCbIcJ" ++
  "fKDzQVLUcrSBoNCCEbTABEBBcEGCOXIHAHAHAHAHAHAHAHbGdQbHbAAdLLiGZQAbPFQAdIDdXEbRAbZAbQAdIIbWAb" ++
  "riRCcDInKTbVDBJbGBdCBGHiNTRADAEAZBFDKFcEHcQJMXNAbMHZKBLbEFbWACDCBCANALDHAZAbPFCBCKDAIABBKB" ++
  "bGAbZABCCBFBBABXRBIKGBGBGIHAHAcIDeNACAECKFqnSLXDbXDdaUjmDoCBeCbLHLFEBAYAFABACACAzAbFQPKVbJ" ++
  "ATAEDFAfFDgDAbECGBGBGBDCHAHMCBMAbAATACAPBObHeTEDDbTCdKANCBbUbTfAbDCbXPbBDbKIbEEbMJbEAbLDOb" ++
  "PgCBKFbKDbKDbOHcAKMAPAHACALAPAHACCcALlZIWJIXGAbQAJcQGBBAbSACCBBXAcUHJbVTACEbHCbBEbBbLcEDUB" ++
  "bVOEADAbDJJGJGcMbFbLFMIcCCbDBbBEbAGELHdBcVcCbZMbZGbQLKFbMHYHChZbFAbQCBBCPGHJbMbOHWKJVSDEbL" ++
  "bCTXIBAcCOHDbEACBBLbXDCBCAENZGKIbKEBISHbJADKcAIBAIDCAQAUKSAbCCCDGACcKHABAEAPALFbVADMKHCAIB" ++
  "CBWAHACAFCBABAEBCBCCBLHbBKABBBAbMABACOBACCBADACbMcEHCCBAVABADbDbWACFBACABBBBEHKgJbVACFEBBB" ++
  "bBbJbZHCABBEKKFNSbRABACHCFKFUbBbBCBACDBIXhCbVIBBBdVdFLIBBBIACAYAFACFEADIKcRIBbQHEAEbABJbOF" ++
  "CDIIBFCCbUMBBJMcVGKdIBCBABdJbINKFJAbMNBAGJbDCbGYBGBBBcWHACAbMUBIKFGACAbLDCABABGKFbSDKjLTBE" ++
  "IPAbKHCCXdHBObYMbjNdXeHAFKhOdxJdVMbpGQGYfxREwLkdCbELDCKcoRvXGbFAKDdDAKFbEGBJbWGPJKAHAVETqP" ++
  "cGhPdNEZBZbRcXEcEKNcLENFIkxYbObGdSeLmwQEAHACAlFOBbCDBBNEHpGdkTeDENCJGKBBBBfvJjTCqUFXORdQeM" ++
  "cHjMJbNBcIEDVCGbEDcJUcOCBeRULULdJIZfEdHAcTACBBBCBEAMABAHAcNAEBIAHAbCAEAFABCHAnCBlGBvQcCEbX" ++
  "IAOAHbrVbFFGkAcKfPbTJHBKDCmHbERbSDKEBrVbCDKiFbEBLDBhJbFADACAHBFICiPHAEACAPAhPBJbVcQGBDKDCb" ++
  "eEcQcXcJhLEAbBACABBBAKAEABABFBDBABABADACABBBABABABABACABBEAHAEAEABAKAREDAFARbZCkJbSDdWLPBP" ++
  "APAbLJgScDbDMbSDJGCNGfXblXCRCNCiKFMDBOMDcEHKFbOHbEBMDCNJbMnGHOBNCLCcFABDQBMDKGfRAdZbnOclfC" ++
  "bFgmOBioCBlbLOxYdqVuWcfXhhZEmoObzljX"

end LazyPeg.Unicode
