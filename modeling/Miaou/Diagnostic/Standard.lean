import Miaou.Diagnostic.Catalog
import Miaou.Diagnostic.Template

/-!
The standard catalog, with a French definition for every code.
-/

namespace Miaou.Catalog.Standard

open Template (placeholder)

def script : List Definition := [
  { code := .missingMiaou
    name := "ScriptSansMiaou"
    severity := .high
    tech := "Le script doit commencer par 'miaou'."
    meow := "😾 Le chat n'entre pas sans un \"miaou\" pour l'accueillir."
    mood := "😾 Vexé, reste devant la porte."
    suggestion := "✔ Ajoute 'miaou' sur la première ligne du fichier"
    sample := "  miaou\n  ecrire \"Bonjour !\"\n  meow" },
  { code := .missingMeow
    name := "ScriptSansMeow"
    severity := .high
    tech := "Le script doit se terminer par 'meow'."
    meow := "💤 Le chat s'est endormi avant le \"meow\" final."
    mood := "💤 Roulé en boule, ne répond plus."
    suggestion := "✔ Ajoute 'meow' sur la dernière ligne du fichier"
    sample := "  miaou\n  ecrire \"Bonjour !\"\n  meow" },
  { code := .prematureMeow
    name := "MeowPremature"
    severity := .medium
    tech := "Le mot-clé 'meow' apparaît avant la fin du script."
    meow := "🪟 Le chat a filé par la fenêtre avant la fin."
    mood := "😼 Déjà dans le jardin."
    suggestion := "✔ Garde un seul 'meow', tout à la fin du script"
    sample := "  miaou\n  # ton code ici\n  meow" },
  { code := .forbiddenOrder
    name := "OrdreInterdit"
    severity := .medium
    tech := "Structure du script invalide."
    meow := "😼 On ne sert pas les croquettes avant de poser le bol."
    mood := "😼 Perplexe, moustaches en avant."
    suggestion := "✔ Un seul 'miaou' au début, un seul 'meow' à la fin"
    sample := "" },
  { code := .emptyFile
    name := "FichierVide"
    severity := .medium
    tech := "Le fichier est vide."
    meow := "😿 Le carton est vide, pas même un chat dedans."
    mood := "😿 Déçu."
    suggestion := "✔ Écris au moins 'miaou' et 'meow'"
    sample := "  miaou\n  meow" }]

def grammar : List Definition := [
  { code := .unknownInstruction
    name := "InstructionInconnue"
    severity := .medium
    tech := "Instruction ou symbole non reconnu."
    meow := "😿 Le chat ne comprend pas ce mot."
    mood := "😿 Tête penchée, perplexe."
    suggestion := "✔ Vérifie l'orthographe de l'instruction\n✔ Consulte la liste des mots-clés"
    sample := "" },
  { code := .unterminatedString
    name := "GuillemetManquant"
    severity := .medium
    tech := "Chaîne de caractères sans guillemet de fermeture."
    meow := "🧶 La pelote de laine n'est pas refermée."
    mood := "🧶 Joue avec le fil qui dépasse."
    suggestion := "✔ Ferme la chaîne avec le même guillemet qu'à l'ouverture"
    sample := "  texte = \"Bonjour le chat\"" },
  { code := .missingDelimiter
    name := "ParentheseManquante"
    severity := .medium
    tech := "Délimiteur manquant : " ++ placeholder "expected" ++ " attendu."
    meow := "🐈 Une patte dépasse : il manque " ++ placeholder "expected" ++ "."
    mood := "🐈 Une patte en l'air, mal installé."
    suggestion := "✔ Vérifie que chaque '(' a son ')' et chaque '[' son ']'"
    sample := "  resultat = (3 + 5) * 2" },
  { code := .badIndentation
    name := "IndentationFautive"
    severity := .medium
    tech := "Indentation incorrecte."
    meow := "😾 Le chat déteste les lignes mal alignées."
    mood := "😾 Agacé par le désordre."
    suggestion :=
      "✔ Indente chaque bloc de façon cohérente\n✔ Ne mélange pas espaces et tabulations"
    sample := "  si age > 10 alors:\n      ecrire \"OK\"" },
  { code := .missingElement
    name := "MotCleManquant"
    severity := .medium
    tech := "Élément attendu manquant : " ++ placeholder "expected" ++ "."
    meow := "🧐 Il manque un mot magique : " ++ placeholder "expected" ++ "."
    mood := "🧐 Attend la suite, queue immobile."
    suggestion := "✔ Vérifie la forme complète de l'instruction"
    sample := "" }]

def values : List Definition := [
  { code := .undefinedVariable
    name := "VariableInexistante"
    severity := .medium
    tech := "Variable '" ++ placeholder "var_name" ++ "' non définie."
    meow := "🐾 Aucun chat nommé '" ++ placeholder "var_name" ++ "' dans la maison."
    mood := "🐾 Fouille partout, ne trouve rien."
    suggestion :=
      "✔ Vérifie l'orthographe de '" ++ placeholder "var_name" ++ "'\n✔ Définis '" ++
      placeholder "var_name" ++ "' avant de l'utiliser"
    sample := "  " ++ placeholder "var_name" ++ " = 42\n  ecrire " ++ placeholder "var_name" },
  { code := .uninitializedVariable
    name := "VariableNonInitialisee"
    severity := .medium
    tech := "Variable utilisée avant d'être initialisée."
    meow := "😼 Tu appelles un chat que tu n'as pas encore adopté."
    mood := "😼 Sceptique."
    suggestion := "✔ Donne une valeur à la variable avant de la lire"
    sample := "" },
  { code := .incompatibleTypes
    name := "TypeIncompatible"
    severity := .medium
    tech :=
      "Opération impossible entre " ++ placeholder "type1" ++ " et " ++ placeholder "type2" ++ "."
    meow :=
      "🐟 Mauvaise gamelle : " ++ placeholder "type1" ++ " et " ++ placeholder "type2" ++
      " ne vont pas ensemble."
    mood := "😿 Boude sa gamelle."
    suggestion := "✔ Vérifie le type de tes valeurs\n✔ Convertis-les si besoin"
    sample := "" },
  { code := .conversionFailed
    name := "ConversionImpossible"
    severity := .medium
    tech :=
      "Impossible de convertir '" ++ placeholder "value" ++ "' en " ++ placeholder "target_type" ++
      "."
    meow := "😾 Ça ne deviendra jamais un " ++ placeholder "target_type" ++ "."
    mood := "😾 Refuse net."
    suggestion := "✔ Vérifie que la valeur peut être convertie"
    sample := "" }]

def conditions : List Definition := [
  { code := .invalidCondition
    name := "ConditionInvalide"
    severity := .medium
    tech := "Condition invalide ou mal formée."
    meow := "🤨 Cette condition n'a ni queue ni moustaches."
    mood := "🤨 Sourcil levé."
    suggestion := "✔ Utilise des opérateurs valides : =, !=, <, >, <=, >=, et, ou"
    sample := "" },
  { code := .danglingElse
    name := "SinonSansSi"
    severity := .medium
    tech := "'sinon' ou 'sinon si' sans 'si' correspondant."
    meow := "😾 Le chat répond \"sinon\" alors qu'on ne lui a rien demandé."
    mood := "😾 Confus."
    suggestion := "✔ Place 'sinon' juste après le bloc d'un 'si'"
    sample := "  si x > 0:\n      ecrire \"positif\"\n  sinon:\n      ecrire \"négatif\"" },
  { code := .incomparableTypes
    name := "ComparaisonImpossible"
    severity := .medium
    tech :=
      "Impossible de comparer " ++ placeholder "type1" ++ " avec " ++ placeholder "type2" ++ "."
    meow := "🐈 Comparer un chat et un grille-pain ? Non."
    mood := "🙀 Choqué."
    suggestion := "✔ Compare des valeurs de même nature"
    sample := "" }]

def loops : List Definition := [
  { code := .infiniteLoop
    name := "BoucleInfinie"
    severity := .high
    tech := "Boucle infinie détectée (trop d'itérations)."
    meow := "😵‍💫 Le chat court après le laser sans fin."
    mood := "😵‍💫 Étourdi."
    suggestion := "✔ Vérifie que la condition de sortie peut devenir fausse"
    sample := "" },
  { code := .missingLoopExit
    name := "SortieBoucleAbsente"
    severity := .high
    tech := "Boucle sans condition de sortie."
    meow := "🚪 Le chat ne trouve plus la porte."
    mood := "🚪 Tourne en rond."
    suggestion := "✔ Ajoute une condition qui termine la boucle"
    sample := "" },
  { code := .counterOutsideLoop
    name := "CompteurManquant"
    severity := .medium
    tech := "'compteur' utilisé hors d'une boucle 'repeter'."
    meow := "😿 Le chat a perdu le fil du compte."
    mood := "😿 Ne sait plus compter."
    suggestion := "✔ Utilise 'compteur' seulement dans une boucle 'repeter'"
    sample := "" }]

def arithmetic : List Definition := [
  { code := .divisionByZero
    name := "DivisionParZero"
    severity := .medium
    tech := "Division par zéro."
    meow := "🚫 Partager des croquettes entre zéro chat est interdit."
    mood := "😾 Oreilles en arrière, queue qui fouette."
    suggestion := "✔ Vérifie que le diviseur n'est pas 0"
    sample := "  si n != 0 alors:\n      ecrire 10 / n" },
  { code := .valueOverflow
    name := "DepassementValeur"
    severity := .medium
    tech := "La valeur dépasse les limites supportées."
    meow := "🐟 Trop de croquettes pour ce bol."
    mood := "😾 Débordé."
    suggestion := "✔ Utilise des valeurs plus petites"
    sample := "" },
  { code := .computationFailed
    name := "CalculImpossible"
    severity := .medium
    tech := "Calcul impossible : " ++ placeholder "reason" ++ "."
    meow := "😿 Le chat abandonne ce calcul."
    mood := "😿 Résigné."
    suggestion := "✔ Vérifie les valeurs du calcul"
    sample := "" }]

def functions : List Definition := [
  { code := .unknownFunction
    name := "FonctionInconnue"
    severity := .medium
    tech := "La fonction '" ++ placeholder "func_name" ++ "' n'existe pas."
    meow := "😿 Le chat ne connaît pas le tour '" ++ placeholder "func_name" ++ "'."
    mood := "😿 Désolé."
    suggestion := "✔ Vérifie le nom de la fonction\n✔ Définis-la avant de l'appeler"
    sample := "" },
  { code := .wrongArgumentCount
    name := "ArgumentsInvalides"
    severity := .medium
    tech :=
      "Nombre d'arguments incorrect : " ++ placeholder "expected" ++ " attendu(s), " ++
      placeholder "received" ++ " reçu(s)."
    meow :=
      "🐾 Le chat voulait " ++ placeholder "expected" ++ " caresse(s), pas " ++
      placeholder "received" ++ "."
    mood := "🐾 Insatisfait."
    suggestion := "✔ Vérifie les paramètres de la fonction"
    sample := "" },
  { code := .missingReturn
    name := "RetourManquant"
    severity := .low
    tech := "La fonction doit retourner une valeur."
    meow := "👋 Le chat est parti sans répondre."
    mood := "😼 Parti trop vite."
    suggestion := "✔ Ajoute 'retour valeur' à la fin de la fonction"
    sample := "" }]

def collections : List Definition := [
  { code := .indexOutOfRange
    name := "IndexHorsLimite"
    severity := .medium
    tech :=
      "Index " ++ placeholder "index" ++ " hors limites pour une liste de taille " ++
      placeholder "size" ++ "."
    meow := "🐈 Aucun chat à la place " ++ placeholder "index" ++ "."
    mood := "🐈 Cherche dans le vide."
    suggestion := "✔ Utilise un index entre 0 et " ++ placeholder "size_minus_one"
    sample := "" },
  { code := .emptyCollection
    name := "ListeVide"
    severity := .low
    tech := "Opération impossible sur une liste vide."
    meow := "😿 La gamelle est vide."
    mood := "😿 Affamé."
    suggestion := "✔ Vérifie que la liste contient des éléments"
    sample := "" }]

def timing : List Definition := [
  { code := .negativeDuration
    name := "TempsNegatif"
    severity := .medium
    tech := "Durée d'attente négative : " ++ placeholder "duration" ++ "."
    meow := "🕰️ Le chat ne peut pas faire la sieste dans le passé."
    mood := "🕰️ Confus par le temps."
    suggestion := "✔ Donne une durée positive à 'attendre'"
    sample := "" }]

def system : List Definition := [
  { code := .fileNotFound
    name := "FichierIntrouvable"
    severity := .high
    tech := "Le fichier '" ++ placeholder "filename" ++ "' est introuvable."
    meow := "😾 Le chat ne retrouve pas le script '" ++ placeholder "filename" ++ "'."
    mood := "😾 Cherche sous tous les meubles."
    suggestion := "✔ Vérifie le chemin du fichier"
    sample := "" },
  { code := .permissionDenied
    name := "PermissionRefusee"
    severity := .high
    tech := "Accès refusé à '" ++ placeholder "filename" ++ "'."
    meow := "🚪 Porte fermée, le chat n'a pas la clé."
    mood := "🚪 Bloqué dehors."
    suggestion := "✔ Vérifie les permissions du fichier"
    sample := "" },
  { code := .internalCrash
    name := "CrashInterpreteur"
    severity := .high
    tech := "Erreur interne : " ++ placeholder "reason" ++ "."
    meow := "💥 Le chat a renversé l'interpréteur."
    mood := "💥 Catastrophe."
    suggestion := "✔ C'est un bug de MeowLang\n✔ Signale-le avec ton script"
    sample := "" },
  { code := .tooManyErrors
    name := "ChatAssisSurClavier"
    severity := .high
    tech := "Trop d'erreurs détectées, analyse interrompue."
    meow := "🐾 Le chat s'est assis sur le clavier."
    mood := "🐾 Confortablement installé sur les touches."
    suggestion := "✔ Corrige d'abord les premières erreurs"
    sample := "" }]

end Standard

def standard : Catalog :=
  ofList (Standard.script ++ Standard.grammar ++ Standard.values ++ Standard.conditions ++
    Standard.loops ++ Standard.arithmetic ++ Standard.functions ++ Standard.collections ++
    Standard.timing ++ Standard.system)

end Miaou.Catalog
