import LazyPeg.Unicode.RangeSet

/-!
# General categories

The general category of every assigned character (Unicode 16.0), one entry per two-letter
category.  Surrogates are no characters and have no entry.  The one-letter groups (`L`, `M`, ...) are
unions of these and stand in `Property.lean`.
-/
namespace LazyPeg.Unicode

/-- The two-letter general categories. -/
def categories : PropertyTable := [
  (["cc", "cntrl", "control"],
    "AbFdRbG"),
  (["cf", "format"],
    "gRAcaKFWAhKAbXAoUBdCAftJAdaQEbAEbXEBJdghJAjPCgiZAPAnkKPbzqUDhwXHbtkzMAbEdR"),
  (["cn", "unassigned"],
    "biEBGDHABAUApHAbMBbYBDAcDHbBDGKkKAcIBdXNcHBbXBPAbCBBALEbFACEjDAIBCBWAHABCEBJBCBEHBDCAFBZ" ++
    "BDAGDCBWAHACACACBBAFDCBDCBGEABGRJDAJADAWAHACAFBKADADBBOEBMGHADAIBCBWAHACAFBJBCBDGDDCAFBS" ++
    "JCAGCDAECCABACCCCDCMDFCDAEBBFBNVENADAXAQBJADAEGCADBBBEBKGWADAXAKAFBJADAEGCFCAEBKADLNADAb" ++
    "ZADAGDQBbAADASCYAJABBHCBDGABAIFKBDLcGDbDbKCABAFAYABAXBFABAHAKBEbFcUAbKDbNAbKAPANbKhQABEB" ++
    "BoNAEBHABAEBbPAEBbHAEBHABAEBPAcFAEBcPBbGCbAFdIBGBzTCdLGWIYIULNADACLdQBKFKFbAFdLGbREcSJbF" ++
    "AMDMDBCbQBFKbSDbAFLCcKBcNAbDBLFKFOBbFbWcZAgKHcICPCcKEbRBLHbREuOBGBbMBGBIABABABAbFBcBAPAO" ++
    "BGATBDAJAdXAMBbBANCbHObHOfKDzQVLUcrSBbGAnLEbTABEBBcEGCNYIHAHAHAHAHAHAHAHAeWbHbAAdLLiGZdC" ++
    "AdIBdZEbRAdQAdIIbWAbriRCcDInKThCHhYBCABAIUcHCKFcEHcSHMFeMKbECdAALDbHAcDIOBKBdZXbCJGBGBGI" ++
    "HAHAcIDeWBKFqnSLXDbXDnbABeCbLHLFEbAAFABACACAeVPrDBcCGBbFbQFbZATAEDFAfFBBAhICGBGBGBDCHAHJ" ++
    "FBMAbAATACAPBObHeTEDDbTCdKANCBbUbUeZbDCbXObCDbKIbEEbREbEAbLDObPgCBKFbKDbKDbOHcAKMAPAHACA" ++
    "LAPAHACCcALlZIWJIXGAbQAJcQGBBAbSACCBBXAcUHJbVTACEbHCbBEBcLcEDUBbYACEIADAbDBDDKGJGcMbFbND" ++
    "MIcCCbDBbBEbAGELHdBcVcCbZMbZGbUHKFbMCbDHChZbFAbQADBCPDcCbSHbQVbAbLbCTXIdADbKIcQJBBZGKFcB" ++
    "ASHbNIdSAUKSAbVcJHABAEAPALFcHEKFEAIBCBWAHACAFAKBCBDBBFBEHBHCFKKABBBAbMAKABBBAEAKACHCbCdO" ++
    "AFbDcUHKgJcCBbMbHcRKKFNScGFKFUbBbBBPDXhCcIdVdFLIBBBIACAbEACBMIKcRIBbUBLbAcUHdFMcVGKgZbIN" ++
    "KFJAbTAOJbDCbGBWAOcUHACAbSCBACAJHKFGACAbLACAGGKlXZGRAbPCbDdGBObYMbjNdXeHAFKhOdxJdVMbqSJf" ++
    "xREwLkdCcGcoRvXGbFAKDdDAKFbEBGJcSJKAHAVETqPcGhPdNdWcXDcFGRcLFKCNjcAHbvQbOKnfQEAHACAlFOBb" ++
    "CDBBNEHpGdkTeDENCJGKBIfvFjQFqUcXbUBXIeMcHjMJbNBhMUcSeRULULdJIZfEdHAcTACBBBCBEAMABAHAcNAE" ++
    "BIAHAbCAEAFABCHAnCBlGBbbAOFAPbqLbFFGiEHARBHACAFEcKbGBeHbTCOBKDCmHbFQcGEBrVbQiFbRDBsLHAEA" ++
    "CAPAhPBQbOcYDKDCbeEcQcXcJhLEAbBACABBBAKAEABABFBDBABABADACABBBABABABABACABBEAHAEAEABAKARE" ++
    "DAFARbZCkJbSDdWLPBPAPAbLJgScDbDMbSDJGCNGfXblWDRCNCePDdRFMDBOMDcEHKFbOHbEBMDCcJnCLOBNCKEc" ++
    "EGPBLFJGfRAdYbnPclfCbFgdUFiOBinQNlbLOxYdqVuWcfXhhZEgfGbomxKBbDdSeXjGdsfNdsyOBdsyOB"),
  (["co", "privateuse"],
    "dgvOjmDcahxOdsyNCdsyN"),
  (["ll", "lowercaseletter"],
    "dTZcGAbPXBHBABABABABABABABABABABABABABABABABABABABABABABABABABABABBBABABABABABABABBBABAB" ++
    "ABABABABABABABABABABABABABABABABABABABABACABABCCABACADBEACADCCACABABACABBBACADABACBCCGAC" ++
    "ACABABABABABABABABBBABABABABABABABABBCABADABABABABABABABABABABABABABABABABABABABABABABAB" ++
    "ABABABABABABGCACBBAEABABABABcQBbAhLABADADCSAbBbIBBDCBABABABABABABABABABABABEBACACBbZbVBA" ++
    "BABABABABABABABABABABABABABABABAJABABABABABABABABABABABABABABABABABABABABABABABABABABACA" ++
    "BABABABABABBBABABABABABABABABABABABABABABABABABABABABABABABABABABABABABABABABABABABABABA" ++
    "BABABABABABABABABABAbWbOehBbQCCbdGFdfUIBAeNbRcLMBbHdYABABABABABABABABABABABABABABABABABA" ++
    "BABABABABABABABABABABABABABABABABABABABABABABABABABABABABABABABABABABABABABABABABABABABA" ++
    "BABABABABABABABABABABABABIBABABABABABABABABABABABABABABABABABABABABABABABABABABABABABABA" ++
    "BABABABABABABABABABABABABABABABABABIIFKHIHIFKHIHINCHIHIHIEBBGADCBBIDCBIHKCBBkOADBDAbBAEA" ++
    "EACBIDEAcBAebBbVBADBBABABAEABBBFFABABABABABABABABABABABABABABABABABABABABABABABABABABABA" ++
    "BABABABABABABABABABABABABABABABABABABABABABBHABAEAMbLBAFAbtwDABABABABABABABABABABABABABA" ++
    "BABABABABABABABABATABABABABABABABABABABABABABAfFABABABABABABCBABABABABABABABABABABABABAB" ++
    "ABABABABABABABABABABABABABABABABABABHBABACABABABABAEABACABCBABABABABABABABABABAFAFABABAB" ++
    "ABABABABAEABACADABABABABABAbAADAbfPbQFIHdBbeaIGMEboZZbvHbNfGbJfZKBOBGBBcrBbYeVVegObFbgjW" ++
    "bFbmmKZbAGBRbAZbADBABGBKbAZbAZbAZbAZbAZbAZbAZbAZbAbBbCYBFbAYBFbAYBFbAYBFbAYBFBAcsYJBTGFd" ++
    "uDbH"),
  (["lm", "modifierletter"],
    "baMRELOEHABAfDAFAsKAiWAgIBkJBEAbFAJADAgEAgLAbvOAeXAvTAcpMAeDAxNArWFgScKNAbIbKbaNANAQMemX" ++
    "BjHAhJAsBAbREFAdTBdPCbqbUAbwCFkKAeKAbCBeRIdCAXAeBCDBsBAWAfHAeEAVBdZDJAbfvIAbTBczOFBbPBIc" ++
    "cXAbGAbjnSDtOCbOBvEMcMBBAygQDBGBBsgNcJhTGbkFAbrBA"),
  (["lo", "otherletter"],
    "gOAPAjWAEDiAAbfVbAEDbTbFBJbJBBdUBAYBKCCAQABbDbDdKLAYbGVVbQYHKFXBFRbOcHcBDASAHJQOEHCBCVBG" ++
    "BADDDAQANBBCOBKAIFEBCVBGBBBBBBbFDBATCQIBCBVBGBBBEDASAPBXALHCBCVBGBBBEDAbEBBCPARABFDCBDDB" ++
    "BABBDBDCDLWAcAHBCBWBPDAbACCACBbEAEHBCBWBJBEDAbFBBBPBRIBCBbOCAQAFCICYFFRDXBIBACGcGbVBBMFc" ++
    "HBBABEBXBABJBBJACEXDbGAcLHBbJbBEeLbQUAQFEDDADBHCEMMAeJmQBDCGBABDCbOBDCbGBDCGBABDCOBcEBDC" ++
    "cObLPeJxVCQBZFcWGHHRNSOROMBCPbZbOAcPbIBcAHECbHBAFcRKbEbXbDCELbREZcCWJcAgUbURHcCbDNBKbRbA" ++
    "bJbPCKbDeJDBFBBDAbpQDenVcDYWJGBGBGBGBGBGBGBGvFAcBAEdHIABdLEAFbQBdPRbFbWPtSjtNcMbfcEBbrYc" ++
    "PbNIkHEPKBcOAbXcRgNAdZADGBCBDBWbDbZObXcKFDABBLbBKWZbCHbUbTECIKEBbOXCBHUPBFDADbXBADBCECAB" ++
    "AYBDKHAOFCFCFJGBGfPbIbDqnRMWEbWmnCoBCeBcPABJBMBEBABBBBBeDbHnYScLCcBbOLeMEBfEeBJBbSCbEDFC" ++
    "FCFCCbJLBZBSBBBOCNbIeSoZbCDbWbVbFNTBHGbLKbDCbJEHeYcZdUbNIbZdObZMlYJVKHfWFCABbRBBDACWKWJb" ++
    "EcNSBBKVKZcScDGBcMAPDBCBbCbQbCDbCbJHBbBbBcBKVKSNReGcUhBbJbMDBAlSbPGBQCcHbCKAIVbQRbUUbBWM" ++
    "cAcFBCANbSbGYbAbJbDACAIbIDAMbVODVABAbJRBYTBcLGBABDBOBJHbUbMHCBCVBGBBBEDASAMEbEJBACABbLBA" ++
    "ZABAbScASDUCbEbVUBBAhCbUbPDbKbVUAcHbQNAcTbAbLGhDbRiDHCACHBBBXPABAdQHCbMQABAbCAKbNHAVALbT" ++
    "TAScUhRbGbFIBbKRAbXbDeIGBBBbLVAZFBBBbFOAmPSPABMBbHeUAdBbjLiWhNdxKdSPbpFRFZfxQFwKkdDbDcpU" ++
    "vWHbERdARbDSbVbZUFSqTbNpPcWFAgTjbZIbvPbPJngHlEPAbDCCAODIpFdkUeCFMDIHJnbCAtHbSbHAmJbDSbRs" ++
    "QbAiVbDCAtBGBDBBBOBhObzNDBbABBBACABJBDBABAGAEABABABCBBBACABABABABABBBACDBGBDBDBABJBQFCBE" ++
    "BQgoAclfBbGgdTGiNCinPOlbKPxXdqWuVcfYhhYFgfF"),
  (["lt", "titlecaseletter"],
    "rLACACAbMAlfHHIHIHMAPAbVA"),
  (["lu", "uppercaseletter"],
    "cNZdXWBGbHABABABABABABABABABABABABABABABABABABABABABABABABABABABACABABABABABABABACABABAB" ++
    "ABABABABABABABABABABABABABABABABABABABABBBABADBBABBBCCDBBBCDBBBBABABBBACABBBCBABBDAHACAC" ++
    "ACABABABABABABABACABABABABABABABABACACABCBABABABABABABABABABABABABABABABABABABABABABABAB" ++
    "ABABABABABAHBBBCABDBABABABAlDABADAIAGABCBABBBQBIbJACCDABABABABABABABABABABABAFACABBCbYbW" ++
    "ABABABABABABABABABABABABABABABABAJABABABABABABABABABABABABABABABABABABABABABABABABABABAB" ++
    "BBABABABABABACABABABABABABABABABABABABABABABABABABABABABABABABABABABABABABABABABABABABAB" ++
    "ABABABABABABABABABABACbLehDbLBAFAbbUdHdgLAGbQCCmIABABABABABABABABABABABABABABABABABABABA" ++
    "BABABABABABABABABABABABABABABABABABABABABABABABABABABABABABABABABABABABABABABABABABABABA" ++
    "BABABABABABABABABABABAJABABABABABABABABABABABABABABABABABABABABABABABABABABABABABABABABA" ++
    "BABABABABABABABABABABABABABABABAJHIFKHIHIFLABABABAIHcUDMDMDMELDkCAEADCCCCADEGABABABDCDKB" ++
    "FAcJAdzGbVbWABCCABABABDBACAICBABABABABABABABABABABABABABABABABABABABABABABABABABABABABAB" ++
    "ABABABABABABABABABABABABABABABABABABABAIABAEAbtyJABABABABABABABABABABABABABABABABABABABA" ++
    "BABABATABABABABABABABABABABABABABAfFABABABABABABADABABABABABABABABABABABABABABABABABABAB" ++
    "ABABABABABABABABABABABAKABABBBABABABAEABACABADABABABABABABABABABABEBEBABABABABABABABDBAB" ++
    "BDAFABABABAYAbhaHZbuZbNfGbJgAKBOBGBBcqCbYgBVegObFbgjWbFbmmQZbAZbAZbAABBCACBCDBHbAZbABBDC" ++
    "HBGbBBBDBEBADGbBZbAZbAZbAZbAZbAZbEYbHYbHYbHYbHYbHAgnLbH"),
  (["mc", "spacingmark"],
    "dkTAcDACCIDBBbYBcGCGBCBKAbRAcGCcOAcGCIABBcBBcGABAGBCBKAdYBBBDCBCKAbPCcJDcJBcGABECBBBJBbC" ++
    "AOBcGCFCBCKAbQBcXCGHSBmSBcLAgPBEAGACBZBKCCGVBCFCAKCclSAbEAeZAHHBBnIDCCEBBFiQBcGABAJABBIF" ++
    "fPAbWAFABEBBcJAbEAEBCAcIACCBADBbWHIBgPAVAhhEBbtlBBCAdKBbYPfMBbVAbWBEBCCeGBCBYAbTABAeFACB" ++
    "FAjDBBBBBBAblxJABAeXAbTCEBeLAYBcHAbWCJBNAdPCDBBAgOCbFBcGBBDCBCCJAKBdGCHACABDBBBAdXCIBDAe" ++
    "CCGABDCAjDCGDCAeJCIBBAeFABBGAdZABBEAkBCJAjNFBBEACABAfMCIDEAdGAbDBcKApRAOAeCAHACAiFEEBBAn" ++
    "MBMAbWBIBBAyyYCfjGcCeABbkxNBGF"),
  (["me", "enclosingmark"],
    "bsQBikQAciGDBCbyoXC"),
  (["mn", "nonspacingmark"],
    "bdOeHkPEkFbSBABBBBBAcUKbWUQAdXGCFCBBDbJAbEbAdNKcGIJAYDBIBCBEbRCcHIbQXBbFcDABAEHEADGKBbDA" ++
    "cGAEDIAUBbAACBcFAEBEBCCDAbEBDALBcFAEEBBEAUBWFBAcGACABDIAHBLBbEAcJAMAbYADAcDABCFCBDHBLBbD" ++
    "AcGACAGAFBUBbCBcFBEDIAUBbDAcUAHCBAdMACGMHdUACILGcVBbBABABAcDNBEBBFKBbJJAdYDBFBBCBZBECQDN" ++
    "ACBGAPAbbBCbkKCbDBbEBbEBcMBBGIACKJAbTCBAeNBbIAeOCEBJAGCiLBCAcGABGBABACHGJCAbWNBPbXDbWABE" ++
    "BAFAbOIMBbGDCBBCcEABBDABCcGHCBfWCBMBGEAGADBhQcLbbSMEADLeoCCfLAdSbFvIDeDBbsqEAEJbGBdCBkMA" ++
    "DAEAZBFAfVBbARNAbMHZKbUCbWACDCBbNAcPFCBCBMAIAbVAbZABCCBFBBAbQBIAjEACAEAbdzSAbcJPQPblLAiS" ++
    "AfTEcmGCBBFDbOCEAgJBwBDcNEmFBdBDcSKbXDeTAcCObPACBKCbXDCBHAcJCbKEBHcKAMBcAIKDCAdRCCABBGAC" ++
    "AgBADHVBcFBDAbLGDEcSFNABABAOBdHHCCBAXAdGFBAEBBBjEDGBBBbBBdHHCABBeCABACFBAdXABACDBEjZIBBj" ++
    "WBBAEAfODCBEAbGJbOFCDIAJFCCbUMBBpQGBFBAdEVCGBBBBeSFDABBBGBAcUBDABAnJBLBcAEFABAXAhxTAGOqy" ++
    "YLDCdsAEcHGboIAcLDdDAbdbKBgyZbTCWuYCRHCGbEDfSCcyDcCEbXIAOAWEBOcaIGBQCGBBBEdWAgEGoLAcJDtO" ++
    "DjUBbcIGeFGbtciVjF"),
  (["nd", "digit", "decimalnumber"],
    "bWJciOJfEJhQJpWJeOJeOJeOJeOJeOJeOJeOJeOJeOJdSJeOJcSJkSJcSJctQJbMJlOJeYJgKJGJhAJdIJfEJGJc" ++
    "aeOJbaCJbMJhQJWJdIJpQJbfmCJccKJdfYJGJbeQJeYJcIJfOJkSJnEJeOJoKJdYJGTcYJqGJdYJzMJdIJjMJcSJ" ++
    "qGJyyGJdmCJdIJfEJuOJbkdYJecQbXdnCJqGJtIJjNJbgVJhbAJ"),
  (["nl", "letternumber"],
    "irUCdyTbICDfmSAZIOCbsyLJbifGcArSAIAfEEmeSeG"),
  (["no", "othernumber"],
    "gWBFACCdmRFoMFeQCfDGiJGRIqRJbpLTbrVJsMAcmVADFGJhQPbPAbbYcHdAVyGbDcbHAbtCDfIJbEHBObGJbNOb" ++
    "smIFbhqNbScNDRBnDbAbKDbzGHZGbNIcXEWFgEBCPCbTcMIcABbECcXEeAHYHbPGmSFnObEgCJbQDeIGfEToPTbz" ++
    "XBqOIbhNSbgTUbcpQGbeSWblyFTMTeEYibUIbjTcGBCBDcYbSBOblAM"),
  (["pc", "connectorpunctuation"],
    "dRAmbVBTAdgaOBYCjFA"),
  (["pd", "dashpunctuation"],
    "bTAcaUAbZAfkJAbnPAdbDFfhXACAbFBEAbCArEATAeHAczwABbLAKAgNAflOAmGA"),
  (["pe", "closepunctuation"],
    "bPAbZAbFAfpDABAcuOAdrDAcDAPAyKABAbEAbpUABABABABABABAdCAbGABABABABApOABABABABABABABABABAB" ++
    "AcMABAbHAboVABABABAbSABABABAqMABABABABADABABABACBczrQAiJAbDABABABABABABABADARABABAgOAbZA" ++
    "bFACACA"),
  (["pf", "finalpunctuation"],
    "hFAlwVADAbCAffSABAEACAPADA"),
  (["pi", "initialpunctuation"],
    "gPAlxKACBCAZAffSABAEACAPADA"),
  (["po", "otherpunctuation"],
    "bHCBCCABABBKBDBbBAcQAFAOBHAbbAAIArYFbPAcCACACAbSBUBBBNABCcWDdYAbRNiZCcCObFAkBBKAfKAeQAeR" ++
    "ApAAMAoDAdMAKBgMOBAeIAcWEEBeHFgPAxOIbdTAeUCcTBgBCBCbLFBDmBBiIBeYGBFgEBKGbCCeUDcHEcKBcMHL" ++
    "AbgCBIHIICDCCDKBABJeuCDBBeIAfNBECCACIBBBACBKEBJCDBABMCCqMCcFAhHAbryGBkJCdVAKAeLFoQDdIBbO" ++
    "CBAbXBbVAdTMQBeUDeWBQBjPAbfcUGCAWAUBCDDCBDHCGABBfTCBCCABABBKBDBbBAbKACBpUCzSAbWApYAbcPAh" ++
    "RAbFAkMIbMAeIGcOGdLDbkQEbSDhHGeFBBDeWDbWBdBDEANABCdKFeDAlMBBBeKEKBBAeAAjQWeBCbCMcYAfACjS" ++
    "AkECfZAdOHdFCBEdPJiHAdREbQByVBcWMgTAbrSEejCBwdVBfDAcNEIAvGClJDmPAbdbOAliLEeiTAbhEB"),
  (["ps", "openpunctuation"],
    "bOAbYAbFAfpEABAcuOAdpMADAbMAcDAPAyKABAbEAbpUABABABABABABAdCAbGABABABABApOABABABABABABABA" ++
    "BABABAcMABAbHAboVABABABAZASABABABAqMABABABABADABABABACAczrTAiHAbDABABABABABABABADARABABA" ++
    "gOAbYAbFADACA"),
  (["sc", "currencysymbol"],
    "bKAeVDbwJAeTAtEBtEBHAjLAkDAwJAdqPAdiIbGbzhVAbgmLAeEAfYAiLBDBmcSDcvxEAdrKA"),
  (["sk", "modifiersymbol"],
    "dQABAcTAGAEADAuBDMNFGBABQeNAOBbxIAiuMABCLCNCNCNBghOBbsvRWJBdZBblOAOBbekKQbiHABAgGAdolJE"),
  (["sm", "mathsymbol"],
    "bRAQCcJABAbTAEAbLAbFAbdMAuHCjyHANAbNCNCfJAbNEGAcQEFBEACACAHAbFBCABAbFkHbGBdMAbEYbOFsBAJA" ++
    "cCHeHAmYECbEKPjWfAWcKEbFCjXbWUCFdasQAbfSABCgIAQCcJABAfBAGDfeFBcyeZAZAbFAZAbFAZAbFAZAbFAZ" ++
    "AiuEB"),
  (["so", "othersymbol"],
    "gKACAEABAblPAkGBeXBhYAKATBjNAtVAoJAfAFBAfCAhZAbPApBCPABCCFUABABAfDHBFBBFDhPBbcYJbbVAbbUA" ++
    "gBbHnPJJIccHBBDBBKABBGFBABABAEALBOABBBAcGBJECDBBBBBGBbECBBABbEkIHETCGCdCBbDZbNGcTWKdDcZW" ++
    "hABIBcBIeGBjNbSbRcMjVtSbVVBGbMCbFBeAiVFnTBbUZBdKMiFbAPEANBMAVBGBmYBEJbGbLJAQbELbDIAPbFKb" ++
    "MPmHjtOcLbguIcCbhHDKBBAwBCbfjAPeXAbTCsQADAEBNBmBIcFQCCBMDAbVbSclUBwTAesSAdgNHEQbcnIDFAbe" ++
    "uWAfvNjFQqTgAeLcIjLKbMCcHFCWBHbDEcIVcNDAhEdIbtXtRcDDbYHBNBBcoUAehWAeZAbbTbREdVMOCOBOBbKX" ++
    "gEcEbCNbREIHBOFfYjQFbbZEQDMDeOEdQGLEAPLEcDIJGbNIbDCLEBcKnBMNCMDJFcDHOCKGIHfQBdN"),
  (["zl", "lineseparator"],
    "meQA"),
  (["zp", "paragraphseparator"],
    "meRA"),
  (["zs", "spaceseparator"],
    "bGAeXAihJAdpNKbKAbVAfxWA")]

end LazyPeg.Unicode
